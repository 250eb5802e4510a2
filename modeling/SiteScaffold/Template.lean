/-
Templates of the files the program generates. A template is a text with
placeholders: `{{name}}` stands for a name, `{{title}}` for the name
capitalised, and in layouts `{{app_title}}` for the title of the application.
-/
import SiteScaffold.Name

namespace SiteScaffold.Template

/-- The template with a name filled in, its title first. -/
def fill (template name : Text) : Text :=
  Text.replace "{{name}}" name (Text.replace "{{title}}" (Name.capitalize name) template)

-- ============================================ pages, controllers, layouts

/-- The view of a page. -/
def view : Text :=
  Text.unlines
    [ "<div>",
      "  <div class=\"container mx-auto px-4 py-16\">",
      "    <h1 class=\"text-4xl font-bold text-gray-900 mb-4\">",
      "      {{title}}",
      "    </h1>",
      "    <p class=\"text-gray-600\">",
      "      {{title}} page content will go here.",
      "    </p>",
      "  </div>",
      "</div>" ]

/-- The stylesheet of a page. -/
def stylesheet : Text :=
  Text.unlines
    [ "/* {{title}} page custom styles */",
      ".{{name}}-container \x7b",
      "  /* Custom styles for {{name}} page can be added here */",
      "\x7d" ]

/-- A Stimulus controller. -/
def controller : Text :=
  Text.unlines
    [ "import \x7b Controller \x7d from \"@hotwired/stimulus\"",
      "",
      "// Stimulus controller for {{title}} page",
      "export default class extends Controller \x7b",
      "  connect() \x7b",
      "    console.log(\"{{title}} controller connected\")",
      "  \x7d",
      "",
      "  disconnect() \x7b",
      "    console.log(\"{{title}} controller disconnected\")",
      "  \x7d",
      "",
      "  // Custom methods can be added here",
      "\x7d" ]

/-- A layout. -/
def layoutFrame : Text :=
  Text.unlines
    [ "<!DOCTYPE html>",
      "<html>",
      "  <head>",
      "    <title><%= content_for(:title) || \"{{title}}\" %></title>",
      "    <meta charset=\"utf-8\">",
      "    <meta name=\"viewport\" content=\"width=device-width,initial-scale=1\">",
      "    <meta name=\"apple-mobile-web-app-capable\" content=\"yes\">",
      "    <meta name=\"application-name\" content=\"{{app_title}}\">",
      "    <meta name=\"mobile-web-app-capable\" content=\"yes\">",
      "    <%= yield :head %>",
      "    <%= stylesheet_link_tag :app, \"data-turbo-track\": \"reload\" %>",
      "    <%= javascript_importmap_tags %>",
      "  </head>",
      "",
      "  <body>",
      "    <main>",
      "      <%= yield %>",
      "    </main>",
      "  </body>",
      "</html>" ]

/-- The view generated for a page. -/
def pageView (name : Text) : Text := fill view name

/-- The stylesheet generated for a page. -/
def pageStylesheet (name : Text) : Text := fill stylesheet name

/-- The Stimulus controller generated under a name. -/
def stimulusController (name : Text) : Text := fill controller name

/-- The layout generated under a name. -/
def layout (name appTitle : Text) : Text :=
  Text.replace "{{app_title}}" appTitle (fill layoutFrame name)

-- ================================================ files of a new project

/-- The home controller with its index action. -/
def homeController : Text :=
  Text.unlines
    [ "class HomeController < ApplicationController",
      "  def index",
      "  end",
      "end" ]

/-- The view of the home page. -/
def homeView : Text :=
  Text.unlines
    [ "<div>",
      "  <div class=\"min-h-screen bg-gradient-to-br from-blue-50 to-indigo-100\">",
      "    <div class=\"container mx-auto px-4 py-16\">",
      "      <div class=\"text-center\">",
      "        <h1 class=\"text-5xl font-bold text-gray-900 mb-4\">",
      "          Welcome! 👋",
      "        </h1>",
      "        <p class=\"text-xl text-gray-600 mb-8\">",
      "          Created with Rails Frontend CLI",
      "        </p>",
      "        <div class=\"inline-block bg-white rounded-lg shadow-lg p-8\">",
      "          <p class=\"text-gray-700 mb-4\">",
      "            Your project has been successfully created and is ready to use!",
      "          </p>",
      "          <p class=\"text-sm text-gray-500\">",
      "            You can start developing with Tailwind CSS and Stimulus.",
      "          </p>",
      "        </div>",
      "      </div>",
      "    </div>",
      "  </div>",
      "</div>" ]

/-- The header that all pages share. -/
def sharedHeader : Text :=
  Text.unlines
    [ "<header class=\"bg-white shadow-sm\">",
      "  <div class=\"container mx-auto px-4 py-4\">",
      "    <div class=\"flex items-center justify-between\">",
      "      <div class=\"text-2xl font-bold text-indigo-600\">",
      "        Logo",
      "      </div>",
      "      <%= render 'shared/navbar' %>",
      "    </div>",
      "  </div>",
      "</header>" ]

/-- The navigation bar within the header. -/
def sharedNavbar : Text :=
  Text.unlines
    [ "<nav class=\"hidden md:flex space-x-6\">",
      "  <%= link_to \"Home\", root_path, class: \"text-gray-700 hover:text-indigo-600 transition\" %>",
      "  <!-- Other menu items will be added here -->",
      "</nav>" ]

/-- The footer that all pages share. -/
def sharedFooter : Text :=
  Text.unlines
    [ "<footer class=\"bg-gray-800 text-white py-6 text-center\">",
      "  <p class=\"text-gray-400\">",
      "    © <%= Time.current.year %> All rights reserved.",
      "  </p>",
      "</footer>" ]

/-- The stylesheet of one element. -/
def sectionStylesheet : Text :=
  Text.unlines
    [ "/* {{title}} custom styles */",
      "{{name}} \x7b",
      "  /* Custom styles for {{name}} can be added here */",
      "\x7d" ]

/-- The processes of a development session. -/
def procfile : Text :=
  Text.unlines
    [ "web: bin/rails server -b 0.0.0.0",
      "css: bin/rails tailwindcss:watch" ]

end SiteScaffold.Template
