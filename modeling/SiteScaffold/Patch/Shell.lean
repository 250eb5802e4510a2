/-
The shell of the application layout: the page body between a shared header and
a shared footer, in one `<main>` element, and a UTF-8 charset. Putting it in
replaces whatever main element the layout had.
-/
import SiteScaffold.Pattern.Class
import SiteScaffold.Patch.Refusal

namespace SiteScaffold.Patch.Shell

open Pattern

def headerTag : Text := "<%= render 'shared/header' %>"

def footerTag : Text := "<%= render 'shared/footer' %>"

def mainOpen : Text := "<main class=\"min-h-screen\">"

def mainClose : Text := "</main>"

def yieldTag : Text := "<%= yield %>"

/-- A declaration of the UTF-8 charset, in either case. -/
def charset : Pattern :=
  literalEitherCase "<meta" ++ gap ++ literalEitherCase "charset" ++ slack ++ "=" ++ slack
    ++ quote ++ literalEitherCase "utf-8" ++ quote

/-- A start tag of the main element, or of one whose name starts like it. -/
def mainStart : Pattern := "<main" ++ many (· ≠ '>') ++ ">"

/-- A tag of the main element. -/
def mainTag : Pattern := mainStart ||| literal mainClose

/-- A line that holds nothing but a tag of the main element. -/
def mainLine : Pattern := lineStart ++ spacing ++ mainTag ++ spacing ++ newline

/-- The start tag of the body. -/
def bodyStart : Pattern := "<body" ++ many (· ≠ '>') ++ ">"

/-- A line that holds nothing but one of the tags of the shell. -/
def shellLine : Pattern :=
  lineStart ++ spacing
    ++ (("<%= render 'shared/" ++ ("header" ||| "footer") ++ "' %>")
        ||| literal mainOpen ||| literal mainClose)
    ++ spacing ++ newline

/-- The layout with a charset after its title, unless it declares one. -/
def withCharset (layout : Text) : Text :=
  if charset.occursIn layout then layout
  else Text.replaceFirst "</title>" "</title>\n    <meta charset=\"utf-8\">" layout

/-- The layout without tags of the main element, nor the lines they had to
themselves. -/
def withoutMain (layout : Text) : Text := mainTag.delete (mainLine.delete layout)

/-- The layout with the shell around the body of the page, unless its header
is there. -/
def insert (content : Text) : Except Refusal (Option Text) :=
  if Text.contains content headerTag then .ok none
  else if !bodyStart.occursIn content then .error (.noAnchor "'<body>'")
  else if !Text.contains content yieldTag then .error (.noAnchor "'<%= yield %>'")
  else
    let bare := withoutMain (withCharset content)
    let opened :=
      bodyStart.rewriteFirst (fun hit => hit.text ++ "\n    " ++ headerTag ++ "\n    " ++ mainOpen)
        bare
    .ok (some (Text.replaceFirst yieldTag
      (yieldTag ++ "\n    " ++ mainClose ++ "\n    " ++ footerTag) opened))

/-- The layout without the lines of the shell. -/
def remove (content : Text) : Option Text :=
  if Text.contains content headerTag then some (shellLine.delete content) else none

end SiteScaffold.Patch.Shell
