/-
Commands that are refused or declined. Whatever refuses a command, be it a check, a question
that the operator declines or leaves, or a search for usages that fails, comes before its
first change: the disk is as it was, and no program was run but probes of the system
(`perform_refused`).

Every command first reads and asks, which spares the disk in any case, and then does what
nothing refuses any more. In between is at most one step that does either: a file that may
be there already, or a mirror that may have nowhere to go.
-/
import SiteScaffold.Command.Perform
import SiteScaffold.Proofs.Blueprint
import SiteScaffold.Proofs.Refusal

namespace SiteScaffold

variable {command : Command} {setting : Setting} {launcher launcher' : Launcher}

-- ============================================================================ reading

theorem Project.still_open (folder : Text) : Edit.Still (Project.open folder) (Project.open folder) :=
  .bind (Edit.still_ask _) fun _ => .ite (Edit.still_pure _) (Edit.still_fail _)

theorem Project.still_homeViews (project : Project) : Edit.Still project.homeViews project.homeViews :=
  .bind (Edit.still_ask _) fun _ =>
    .ite (Edit.still_pure _) (.bind (Edit.still_look _ _) fun _ => Edit.still_pure _)

theorem Project.still_isPinned (project : Project) (package : Text) :
    Edit.Still (project.isPinned package) (project.isPinned package) := by
  apply Edit.Spares.bind (Edit.still_ask _)
  intro found
  apply Edit.Spares.ite
  · exact .bind (Edit.still_fail _) fun _ => .bind (Edit.still_look _ _) fun _ => Edit.still_pure _
  · exact .bind (Edit.still_look _ _) fun _ => Edit.still_pure _

theorem Patch.still_layoutFor? (controller view : Text) :
    Edit.Still (layoutFor? controller view) (layoutFor? controller view) :=
  .bind (Edit.still_ask _) fun _ =>
    .ite (.bind (Edit.still_look _ _) fun _ => Edit.still_pure _) (Edit.still_pure _)

theorem Usage.still_findIn (root : Text) (target : Target) :
    Edit.Still (findIn root target) (findIn root target) :=
  .bind (Edit.still_ask _) fun _ =>
    .ite (Edit.still_pure _)
      (.bind (Edit.still_walk _) fun _ => .bind Edit.still_get fun _ => Edit.still_pure _)

theorem Usage.still_find (root : Text) (targets : List Target) :
    Edit.Still (find root targets) (find root targets) :=
  .bind (Edit.still_mapM targets (still_findIn root)) fun _ => Edit.still_pure _

theorem Settings.still_load (root file : Text) : Edit.Still (load root file) (load root file) := by
  apply Edit.Spares.bind (Edit.still_ask _)
  intro found
  apply Edit.Spares.ite (Edit.still_pure _)
  apply Edit.Spares.bind (Edit.still_look _ _)
  intro content
  cases ofText? content with
  | none => exact Edit.still_fail _
  | some settings =>
      cases hcheck : Export.checkOutputFolder settings.outputFolder with
      | ok => simp only [hcheck]; exact Edit.still_pure _
      | error cause => simp only [hcheck]; exact Edit.still_during_fail _ _

-- ============================================================================= probing

theorem Tool.still_isInstalled (tool : Tool) (folder : Text) (hquiet : launcher.ProbesQuietly)
    (hlike : launcher.ProbesLike launcher') :
    Edit.Still (tool.isInstalled launcher folder) (tool.isInstalled launcher' folder) := by
  unfold Tool.isInstalled
  apply Edit.Spares.ite (Edit.still_ask _)
  apply Edit.Spares.bind (Edit.still_launch hquiet hlike (.which tool.program folder))
  intro outcome
  cases outcome with
  | ok ending => exact Edit.still_pure _
  | error fault => exact Edit.still_pure _

theorem Export.still_findServer (here root pidFile : Text) (hquiet : launcher.ProbesQuietly)
    (hlike : launcher.ProbesLike launcher') :
    Edit.Still (findServer launcher here root pidFile) (findServer launcher' here root pidFile) := by
  apply Edit.Spares.bind (Edit.still_ask _)
  intro found
  cases found with
  | none => exact Edit.still_fail _
  | some pid =>
      have hline : Edit.Still (commandLine? launcher here pid) (commandLine? launcher' here pid) := by
        apply Edit.Spares.bind (Edit.still_launch hquiet hlike (.ps pid here))
        intro outcome
        cases outcome with
        | ok ending => exact Edit.still_pure _
        | error fault => exact Edit.still_pure _
      apply Edit.Spares.bind hline
      intro line
      cases line with
      | none => exact Edit.still_fail _
      | some line => exact Edit.still_pure _

/-- The crawler is no probe, whatever it is called. -/
theorem Export.not_isProbe_crawl (crawler folder root : Text) (port : Nat) :
    ¬ Invocation.IsProbe ⟨crawler, crawlArgs folder port, root⟩ := by
  intro h
  cases h

/-- The pin manager is no probe, whatever it is asked to do to a package. -/
theorem Tool.not_isProbe_pin (verb package root : Text) :
    ¬ Invocation.IsProbe ⟨(Tool.importmap root).program, [verb, package], root⟩ := by
  generalize (Tool.importmap root).program = program
  intro h
  cases h

-- ============================================================================ changing

theorem Blueprint.late_place (path content : Text) : (place path content).Late command := by
  unfold place
  cases Path.parent? path with
  | none => exact .change _
  | some parent => exact .bind .makeFolders fun _ => .change _

/-- A file that is there refuses a new one. -/
theorem Blueprint.spares_placeNew (path what content : Text) :
    Edit.Spares (Refused command fun _ => False) (placeNew path what content)
      (placeNew path what content) := by
  apply Edit.Spares.bind (Edit.still_ask _)
  intro held
  apply Edit.Spares.ite
  · exact .bind (Edit.still_fail _) fun _ => .of_late (late_place path content) fun _ => id
  · exact .of_late (late_place path content) fun _ => id

/-- A new file where nothing is refuses nothing. -/
theorem Blueprint.placeNew_ends {disk : Disk} {path : Text} (hholds : disk.holds path = false)
    (what content : Text) :
    (Work.edit (placeNew path what content)).Ends setting disk fun answer _ =>
      ¬ Refused command (fun _ => False) answer := by
  apply Work.Ends.edit_late
  rw [placeNew_on hholds]
  exact late_place path content disk

theorem Blueprint.late_discard (path : Text) : (discard path).Late command := by
  apply Edit.Late.bind .get
  intro disk
  cases hremove : disk.removeFile path with
  | ok disk' => exact .bind (.set disk') fun _ => .pure true
  | error fault =>
      cases fault with
      | missing => exact .pure false
      | _ => exact .throw rfl

theorem Patch.HostFile.late_settle (path : Text) (fragment : Fragment) (patched : Option Text) :
    (settle path fragment patched).Late command := by
  cases patched with
  | none => exact .pure _
  | some content =>
      apply Edit.Late.bind
      · apply Edit.Late.bind (.change _)
        intro _
        apply Edit.Late.bind (.look _)
        intro read
        exact .ite (.throw rfl) (.pure ())
      · intro _
        exact .pure _

theorem Patch.HostFile.late_insert (path : Text) (fragment : Fragment) :
    (insert path fragment).Late command := by
  apply Edit.Late.bind (.look _)
  intro content
  cases fragment.insert content with
  | ok patched => exact late_settle path fragment patched
  | error refusal =>
      cases refusal with
      | declared layout => exact .throw rfl
      | noAnchor anchor => exact .throw rfl

theorem Patch.HostFile.late_remove (path : Text) (fragment : Fragment) :
    (remove path fragment).Late command :=
  .bind (.look _) fun content => late_settle path fragment (fragment.remove content)

theorem Tool.late_capture (tool : Tool) (args : List Text) (folder : Text) :
    (tool.capture launcher args folder).Late command := by
  apply Edit.Late.bind
  · exact .bind .get fun _ => .bind (.set _) fun _ => .pure _
  · intro outcome
    cases outcome with
    | ok ending => exact .pure _
    | error fault => exact .throw rfl

-- =========================================================================== exporting

namespace Export

variable {zip : Bool} {site : Text} {port : Nat}

theorem late_moveAll (folder : Text) (files : List Text) : (moveAll folder files).Late command := by
  refine .bind (.mapM files fun file => ?_) fun _ => .pure _
  unfold moveInto
  cases Path.fileName? file with
  | none => exact .pure _
  | some name =>
      apply Edit.Late.bind (.ask _)
      intro held
      exact .ite (.pure _) (.bind (.change _) fun _ => .pure _)

theorem late_reorganize : (reorganize site).Late (.build zip) := by
  apply Edit.Late.bind
  · apply Edit.Late.mapM
    intro kind
    exact .bind (.bind .walk fun _ => .pure _) fun _ => late_moveAll _ _
  · intro all
    refine .bind ?_ fun _ => .pure _
    apply Edit.Late.bind (.ask _)
    intro found
    apply Edit.Late.ite (.pure _)
    exact .bind (.look _) fun _ => .bind (late_moveAll _ _) fun _ => .bind .removeTree fun _ => .pure _

theorem late_rewriteFiles (folder suffix : Text) (rewrite : Text → Text) :
    (rewriteFiles folder suffix rewrite).Late (.build zip) := by
  apply Edit.Late.bind (.ask _)
  intro found
  apply Edit.Late.ite (.pure _)
  apply Edit.Late.bind .walk
  intro visits
  refine .bind (.mapM visits fun visit => ?_) fun _ => .pure _
  apply Edit.Late.ite (.pure _)
  apply Edit.Late.bind (.look _)
  intro content
  exact .ite (.pure _) (.bind (.change _) fun _ => .pure _)

theorem late_finish : (finish site port).Late (.build zip) := by
  apply Edit.Late.bind (.forM _ fun _ => .makeFolders)
  intro _
  apply Edit.Late.bind late_reorganize
  intro moves
  exact .bind (late_rewriteFiles _ _ _) fun _ => .bind (late_rewriteFiles _ _ _) fun _ =>
    .bind (late_rewriteFiles _ _ _) fun _ => .pure _

/-- Packing stops for nothing that refuses a command. -/
theorem pack_spares {disk : Disk} {before : List Text} {visits : List Disk.Visit} {failure : Failure}
    (h : (pack disk site before visits).2 = some failure) :
    failure.cause.refuses (.build zip) = false := by
  fun_induction pack disk site before visits with
  | case1 before => cases h
  | case2 before visit rest failure' hpacked =>
      cases h
      unfold packed? at hpacked
      split at hpacked <;> try cases hpacked
      split at hpacked <;> cases hpacked
      rfl
  | case3 before visit rest hpacked ih => exact ih h
  | case4 before visit rest name bytes hpacked hmem =>
      cases h
      rfl
  | case5 before visit rest name bytes hpacked hmem failure' hblocked =>
      cases h
      unfold blocked? at hblocked
      split at hblocked <;> cases hblocked
      rfl
  | case6 before visit rest name bytes hpacked hmem hblocked stored stop hpack ih =>
      rw [hpack] at ih
      exact ih h

theorem late_archive : (archive site).Late (.build zip) := by
  apply Edit.Late.bind (.change _)
  intro _
  apply Edit.Late.bind
    (.tryCatch .walk fun _ hcause => .bind (.change _) fun _ => .throw hcause)
  intro visits
  apply Edit.Late.bind .get
  intro disk
  cases hpack : pack disk site [] visits with
  | mk stored stop =>
      apply Edit.Late.bind (.change _)
      intro _
      cases stop with
      | none => exact .pure _
      | some failure => exact .throw (pack_spares (by rw [hpack]))

theorem late_hoist : (hoist site port).Late command := by
  apply Edit.Late.bind (.ask _)
  intro found
  apply Edit.Late.ite (.pure _)
  apply Edit.Late.bind (.look _)
  intro entries
  exact .bind (.forM _ fun _ => .change _) fun _ => .bind .removeTree fun _ => .pure _

/-- A mirror that has somewhere to go fails of nothing that refuses a command, and one that
has not clears nothing. -/
theorem spares_mirror (root folder crawler : Text) :
    Edit.Spares (Refused command fun _ => False) (mirror launcher root folder crawler port)
      (mirror launcher' root folder crawler port) := by
  unfold mirror
  cases checkOutputFolder folder with
  | error cause => exact .of_still (Edit.still_fail cause)
  | ok =>
      refine .of_late ?_ fun _ => id
      apply Edit.Late.bind
      · exact .bind (.ask _) fun _ => .ite .removeTree (.pure _)
      · intro _
        apply Edit.Late.bind
        · exact .bind .get fun _ => .bind (.set _) fun _ => .pure _
        · intro outcome
          cases outcome with
          | error fault => exact .throw rfl
          | ok ending =>
              apply Edit.Late.bind late_hoist
              intro hoisted
              exact .ite (.pure _) (.bind (.ask _) fun _ => .ite (.pure _) (.throw rfl))

end Export

-- ============================================================================ commands

namespace Command

open Work (Spares Still Late)

variable {folder name package : Text} {assumeYes : Bool}

theorem still_confirmed (assumeYes : Bool) (question : Text) :
    Still setting launcher (confirmed assumeYes question) (confirmed assumeYes question) :=
  .ite (.bind (Work.still_report _ _) fun _ => Work.still_pure _) (Work.still_agrees _)

theorem still_decline : Still setting launcher decline decline :=
  .bind (Work.still_report _ _) fun _ => Work.still_pure _

theorem still_reportUsages (project : Project) (what : Text) (usages : List Text) :
    Still setting launcher (reportUsages project what usages) (reportUsages project what usages) :=
  .ite (Work.still_report _ _) (Work.still_report _ _)

theorem late_reportPatch (outcome : Patch.Outcome) (applied unchanged : Text) :
    (reportPatch outcome applied unchanged).Late command (fun _ => False) setting := by
  cases outcome with
  | applied => exact .report _ _
  | unchanged => exact .report _ _

/-- Patching a file, and the report of it. -/
theorem late_patch {change : Edit Patch.Outcome} (h : change.Late command) (applied unchanged : Text)
    {next : Unit → Work Outcome}
    (hnext : (next ()).Late command (· = .cancelled) setting) :
    ((liftM change : Work Patch.Outcome) >>= fun outcome => reportPatch outcome applied unchanged >>= next).Late
      command (· = .cancelled) setting :=
  .bind (.edit h) fun outcome => .bind (late_reportPatch outcome applied unchanged) fun _ => hnext

/-- A stylesheet is made only if there is none, so it refuses nothing. -/
theorem Page.late_stylesheet {path what content kept created : Text} {next : Unit → Work Outcome}
    (hnext : (next ()).Late command (· = .cancelled) setting) :
    ((liftM (Edit.ask (·.holds path)) : Work Bool) >>= fun held =>
      if held = true then Work.warning kept >>= next
      else (liftM (Blueprint.placeNew path what content) : Work Unit) >>= fun _ =>
        Work.success created >>= next).Late command (· = .cancelled) setting := by
  intro disk
  refine .bind_edit (Edit.on_ask _) ?_
  cases hholds : disk.holds path with
  | true => exact .bind_late (.report id) fun _ => hnext
  | false =>
      apply Work.Ends.bind_late (Blueprint.placeNew_ends hholds what content)
      intro _
      exact .bind (.report _ _) fun _ => hnext

theorem Page.spares_add : Spares setting launcher (Refused command (· = .cancelled)) (Page.add folder name)
    (Page.add folder name) := by
  apply Spares.bind (.edit (Project.still_open folder))
  intro project
  apply Spares.bind (Work.still_report _ _)
  intro _
  apply Spares.bind_late (.edit (Blueprint.spares_placeNew _ _ _))
  intro _
  apply Late.bind (.report _ _)
  intro _
  apply Page.late_stylesheet
  exact late_patch (Patch.HostFile.late_insert _ _) _ _ <|
    late_patch (Patch.HostFile.late_insert _ _) _ _ <| .bind (.report _ _) fun _ => .pure (by simp)

theorem Page.spares_remove : Spares setting launcher (Refused command (· = .cancelled))
    (Page.remove folder name assumeYes) (Page.remove folder name assumeYes) := by
  apply Spares.bind (.edit (Project.still_open folder))
  intro project
  apply Spares.bind (Work.still_report _ _)
  intro _
  apply Spares.ite (.fail_bind _)
  apply Spares.bind (.edit (Edit.still_ask _))
  intro found
  apply Spares.ite (.fail_bind _)
  apply Spares.bind (still_confirmed _ _)
  intro agreed
  apply Spares.ite (.of_still still_decline)
  apply Spares.of_late
  apply Late.bind (.edit (Blueprint.late_discard _))
  intro _
  apply Late.bind (.report _ _)
  intro _
  apply Late.bind (.edit (Blueprint.late_discard _))
  intro discarded
  refine .optional (.report _ _) ?_
  exact late_patch (Patch.HostFile.late_remove _ _) _ _ <|
    late_patch (Patch.HostFile.late_remove _ _) _ _ <| .bind (.report _ _) fun _ => .pure (by simp)

theorem Stimulus.spares_add : Spares setting launcher (Refused command (· = .cancelled))
    (Stimulus.add folder name) (Stimulus.add folder name) := by
  apply Spares.bind (.edit (Project.still_open folder))
  intro project
  apply Spares.bind (Work.still_report _ _)
  intro _
  apply Spares.bind_late (.edit (Blueprint.spares_placeNew _ _ _))
  intro _
  exact .bind (.report _ _) fun _ => .bind (.report _ _) fun _ => .pure (by simp)

theorem Stimulus.spares_remove : Spares setting launcher (Refused command (· = .cancelled))
    (Stimulus.remove folder name assumeYes) (Stimulus.remove folder name assumeYes) := by
  apply Spares.bind (.edit (Project.still_open folder))
  intro project
  apply Spares.bind (Work.still_report _ _)
  intro _
  apply Spares.bind (.edit (Edit.still_ask _))
  intro found
  apply Spares.ite (.fail_bind _)
  apply Spares.bind (.edit (Usage.still_find _ _))
  intro usages
  apply Spares.bind (still_reportUsages _ _ _)
  intro _
  apply Spares.bind (still_confirmed _ _)
  intro agreed
  apply Spares.ite (.of_still still_decline)
  apply Spares.of_late
  apply Late.bind (.edit (Blueprint.late_discard _))
  intro _
  exact .bind (.report _ _) fun _ => .bind (.report _ _) fun _ => .pure (by simp)

theorem Layout.still_viewFor (layout : Text) (views : List Text) (asked : Option Text) (assumeYes : Bool) :
    Still setting launcher (viewFor layout views asked assumeYes) (viewFor layout views asked assumeYes) := by
  unfold viewFor
  cases asked with
  | some raw => exact .ite (Work.still_pure _) (Work.still_fail _)
  | none =>
      apply Spares.ite (.bind (Work.still_report _ _) fun _ => Work.still_pure _)
      apply Spares.ite (Work.still_fail _)
      apply Spares.ite (Work.still_fail _)
      apply Spares.bind (Work.still_chooses _ _)
      intro chosen
      cases chosen with
      | some view => exact Work.still_pure view
      | none => exact Work.still_fail _

theorem Layout.late_declareLayout (controller layout view : Text) :
    (declareLayout controller layout view).Late command (fun _ => False) setting := by
  apply Late.bind
  · refine .tryCatch (.map (.edit (Patch.HostFile.late_insert _ _))) (fun failure hcause => ?_) fun _ => id
    exact .ite (.bind (.report _ _) fun _ => .pure id) (.throw hcause)
  · intro outcome
    cases outcome with
    | some outcome => exact late_reportPatch _ _ _
    | none => exact .pure id

theorem Layout.spares_add {asked : Option Text} : Spares setting launcher (Refused command (· = .cancelled))
    (Layout.add folder name asked assumeYes) (Layout.add folder name asked assumeYes) := by
  apply Spares.bind (.edit (Project.still_open folder))
  intro project
  apply Spares.bind (Work.still_report _ _)
  intro _
  apply Spares.bind (.edit (Edit.still_ask _))
  intro held
  apply Spares.ite (.fail_bind _)
  apply Spares.bind (.edit project.still_homeViews)
  intro views
  apply Spares.bind (Layout.still_viewFor _ _ _ _)
  intro view
  apply Spares.bind (.edit (Patch.still_layoutFor? _ _))
  intro present
  cases present with
  | some present => exact .fail_bind _
  | none =>
      apply Spares.bind (.edit (Edit.still_ask _))
      intro title
      apply Spares.bind_late (.edit (Blueprint.spares_placeNew _ _ _))
      intro _
      apply Late.bind (.report _ _)
      intro _
      apply Late.bind (late_declareLayout _ _ _)
      intro _
      exact .bind (.report _ _) fun _ => .pure (by simp)

theorem Layout.spares_remove : Spares setting launcher (Refused command (· = .cancelled))
    (Layout.remove folder name assumeYes) (Layout.remove folder name assumeYes) := by
  apply Spares.bind (.edit (Project.still_open folder))
  intro project
  apply Spares.bind (Work.still_report _ _)
  intro _
  apply Spares.bind (.edit (Edit.still_ask _))
  intro found
  apply Spares.ite (.fail_bind _)
  apply Spares.bind (still_confirmed _ _)
  intro agreed
  apply Spares.ite (.of_still still_decline)
  apply Spares.of_late
  apply late_patch (Patch.HostFile.late_remove _ _)
  apply Late.bind (.edit (Blueprint.late_discard _))
  intro _
  exact .bind (.report _ _) fun _ => .bind (.report _ _) fun _ => .pure (by simp)

theorem Pin.still_pinManager (project : Project) (hquiet : setting.launcher.ProbesQuietly)
    (hlike : setting.launcher.ProbesLike launcher) :
    Still setting launcher (pinManager project) (pinManager project) := by
  apply Spares.bind_read
  apply Spares.bind_read
  apply Spares.bind (.edit (Tool.still_isInstalled _ _ hquiet hlike))
  intro installed
  exact .ite (Work.still_pure _) (Work.still_fail _)

/-- Running the pin manager refuses nothing. -/
theorem Pin.late_capture {tool : Tool} {args : List Text} {folder : Text} {next : Captured → Work Outcome}
    (hnext : ∀ captured, (next captured).Late command (· = .cancelled) setting) :
    (read >>= fun s => (liftM (tool.capture s.launcher args folder) : Work Captured) >>= next).Late command
      (· = .cancelled) setting := by
  have hcapture : ((liftM (tool.capture setting.launcher args folder) : Work Captured) >>= next).Late command
      (· = .cancelled) setting := .bind (.edit (Tool.late_capture _ _ _)) hnext
  exact hcapture

theorem Pin.spares_add (hquiet : setting.launcher.ProbesQuietly) (hlike : setting.launcher.ProbesLike launcher) :
    Spares setting launcher (Refused command (· = .cancelled)) (Pin.add folder package)
      (Pin.add folder package) := by
  apply Spares.bind (.edit (Project.still_open folder))
  intro project
  apply Spares.bind (Work.still_report _ _)
  intro _
  apply Spares.bind (still_pinManager project hquiet hlike)
  intro tool
  apply Spares.bind (.edit (project.still_isPinned _))
  intro pinned
  apply Spares.ite (.fail_bind _)
  apply Spares.of_late
  apply Late.bind (.report _ _)
  intro _
  apply late_capture
  intro captured
  apply Late.ite
  · exact .bind (.report _ _) fun _ => .bind (.fail rfl) fun _ => .bind (.report _ _) fun _ =>
      .bind (.report _ _) fun _ => .pure (by simp)
  · exact .bind (.report _ _) fun _ => .bind (.report _ _) fun _ => .pure (by simp)

theorem Pin.spares_remove (hquiet : setting.launcher.ProbesQuietly)
    (hlike : setting.launcher.ProbesLike launcher) :
    Spares setting launcher (Refused command (· = .cancelled)) (Pin.remove folder package assumeYes)
      (Pin.remove folder package assumeYes) := by
  apply Spares.bind (.edit (Project.still_open folder))
  intro project
  apply Spares.bind (Work.still_report _ _)
  intro _
  apply Spares.bind (still_pinManager project hquiet hlike)
  intro tool
  apply Spares.bind (.edit (project.still_isPinned _))
  intro pinned
  apply Spares.ite (.fail_bind _)
  apply Spares.bind (.edit (Usage.still_find _ _))
  intro usages
  apply Spares.bind (still_reportUsages _ _ _)
  intro _
  apply Spares.bind (still_confirmed _ _)
  intro agreed
  apply Spares.ite (.of_still still_decline)
  apply Spares.of_late
  apply late_capture
  intro captured
  apply Late.ite
  · exact .bind (.fail rfl) fun _ => .bind (.report _ _) fun _ => .bind (.report _ _) fun _ => .pure (by simp)
  · exact .bind (.report _ _) fun _ => .bind (.report _ _) fun _ => .pure (by simp)

theorem still_offerDocs (assumeYes : Bool) (tool : Tool) :
    Still setting launcher (offerDocs assumeYes tool) (offerDocs assumeYes tool) := by
  unfold offerDocs
  cases tool.docs with
  | none => exact Work.still_pure _
  | some address =>
      apply Spares.ite (Work.still_pure _)
      apply Spares.bind (Work.still_agrees _)
      intro agreed
      exact .ite (Work.still_openAddress _) (Work.still_pure _)

namespace StaticSite

variable {zip : Bool}

theorem still_requireCrawler (program : Text) (hquiet : setting.launcher.ProbesQuietly)
    (hlike : setting.launcher.ProbesLike launcher) :
    Still setting launcher (requireCrawler program assumeYes) (requireCrawler program assumeYes) := by
  apply Spares.bind_read
  apply Spares.bind_read
  apply Spares.bind (.edit (Tool.still_isInstalled _ _ hquiet hlike))
  intro installed
  exact .ite (.bind (still_offerDocs _ _) fun _ => Work.still_fail _) (Work.still_pure _)

theorem spares_mirrorReported (project : Project) (settings : Settings) (port : Nat) :
    Spares setting launcher (Refused command fun _ => False) (mirrorReported project settings port)
      (mirrorReported project settings port) := by
  apply Spares.bind_read
  apply Spares.bind (Work.still_report _ _)
  intro _
  apply Spares.bind_late
  · apply Spares.tryCatch (.edit (Export.spares_mirror _ _ _))
    · intro failure
      exact .bind (Work.still_report _ _) fun _ => fun _ _ => ⟨rfl, rfl⟩
    · intro failure session
      rfl
  · intro report
    apply Late.bind (.report _ _)
    intro _
    apply Late.optional (.report _ _)
    cases report.outputTail with
    | some tail => exact .report _ _
    | none => exact .pure id

theorem late_finishReported (site : Text) (port : Nat) :
    (finishReported site port).Late (.build zip) (fun _ => False) setting :=
  .bind (.edit Export.late_finish) fun _ => .bind (.report _ _) fun _ => .bind (.report _ _) fun _ =>
    .report _ _

theorem spares_build (hquiet : setting.launcher.ProbesQuietly) (hlike : setting.launcher.ProbesLike launcher) :
    Spares setting launcher (Refused (.build zip) (· = .cancelled)) (build folder zip assumeYes)
      (build folder zip assumeYes) := by
  apply Spares.bind (.edit (Project.still_open folder))
  intro project
  apply Spares.bind_read
  apply Spares.bind (.edit (Settings.still_load _ _))
  intro settings
  apply Spares.bind (Work.still_report _ _)
  intro _
  apply Spares.bind_read
  apply Spares.bind_read
  apply Spares.bind (.edit (Export.still_findServer _ _ _ hquiet hlike))
  intro server
  apply Spares.bind (Work.still_report _ _)
  intro _
  apply Spares.bind (still_requireCrawler _ hquiet hlike)
  intro _
  apply Spares.bind_late (spares_mirrorReported _ _ _)
  intro _
  apply Late.bind (late_finishReported _ _)
  intro _
  apply Late.ite
  · apply Late.bind (.edit Export.late_archive)
    intro packed
    exact .bind (.report _ _) fun _ => .bind (.report _ _) fun _ => .pure (by simp)
  · exact .bind (.report _ _) fun _ => .pure (by simp)

end StaticSite

theorem late_launch (invocation : Invocation) :
    (Work.launch invocation).Late command (fun _ => False) setting := by
  have hlaunch : (Tool.launch setting.launcher invocation).Late command :=
    .bind .get fun _ => .bind (.set _) fun _ => .pure _
  have hrun : (Work.edit (Tool.launch setting.launcher invocation)).Late command (fun _ => False) setting :=
    .edit hlaunch
  exact hrun

theorem spares_runServer (hquiet : setting.launcher.ProbesQuietly)
    (hlike : setting.launcher.ProbesLike launcher) :
    Spares setting launcher (Refused command (· = .cancelled)) (runServer folder) (runServer folder) := by
  apply Spares.bind (.edit (Project.still_open folder))
  intro project
  apply Spares.bind_read
  apply Spares.bind_read
  apply Spares.bind (.edit (Tool.still_isInstalled _ _ hquiet hlike))
  intro installed
  apply Spares.ite (.fail_bind _)
  apply Spares.of_late
  apply Late.bind (.report _ _)
  intro _
  apply Late.bind (.report _ _)
  intro _
  apply Late.bind (late_launch _)
  intro started
  have hended : ∀ {rest : Except Fault Ending → Work Outcome},
      (∀ ending, rest (.ok ending) = pure (.replaced ending)) →
      (∀ fault, rest (.error fault) = Work.fail ((Tool.devServer project.root).notStarted fault)) →
      ∀ ending, Late command (· = Outcome.cancelled) setting (rest ending) := by
    intro rest hok herror ending
    cases ending with
    | ok ending => exact hok ending ▸ .pure (by simp)
    | error fault => exact herror fault ▸ .fail rfl
  cases started with
  | ok ending => exact .bind (.pure id) (hended (fun _ => rfl) fun _ => rfl)
  | error fault =>
      cases fault with
      | notExecutable => exact .bind (late_launch _) (hended (fun _ => rfl) fun _ => rfl)
      | _ => exact .bind (.pure id) (hended (fun _ => rfl) fun _ => rfl)

/-- A command that works on a project spares the disk whenever it is refused. -/
theorem spares_perform {request : Request} (hnew : ∀ name bare, request.command ≠ .new name bare)
    (hquiet : setting.launcher.ProbesQuietly) (hlike : setting.launcher.ProbesLike launcher) :
    Spares setting launcher (Refused request.command (· = .cancelled)) (perform request) (perform request) := by
  obtain ⟨command, folder, assumeYes⟩ := request
  cases command with
  | new name bare => exact absurd rfl (hnew name bare)
  | addPage name => exact Page.spares_add
  | removePage name => exact Page.spares_remove
  | addStimulus name => exact Stimulus.spares_add
  | removeStimulus name => exact Stimulus.spares_remove
  | addLayout name view => exact Layout.spares_add
  | removeLayout name => exact Layout.spares_remove
  | addPin package => exact Pin.spares_add hquiet hlike
  | removePin package => exact Pin.spares_remove hquiet hlike
  | run => exact spares_runServer hquiet hlike
  | build zip => exact StaticSite.spares_build hquiet hlike
  | version => exact .of_late fun _ _ _ h => by cases h

/-- Whatever refuses a command that works on a project leaves every file and folder as it was.
Nothing was run but probes: however a launcher runs everything else, the command comes to the
same. -/
theorem perform_refused {request : Request} {session : Session}
    (hnew : ∀ name bare, request.command ≠ .new name bare) (hquiet : setting.launcher.ProbesQuietly)
    (hrefused : Refused request.command (· = .cancelled) ((perform request).on setting session).1) :
    ((perform request).on setting session).2.disk = session.disk
      ∧ ∀ launcher, setting.launcher.ProbesLike launcher →
        (perform request).on { setting with launcher } session = (perform request).on setting session := by
  have hspares : ∀ launcher, setting.launcher.ProbesLike launcher → _ := fun launcher hlike =>
    spares_perform hnew hquiet hlike session hrefused
  exact ⟨(hspares setting.launcher fun _ _ => rfl).1, fun launcher hlike => (hspares launcher hlike).2⟩

/-- A launcher that finds no program and a server behind every process number. -/
def serverLauncher : Launcher := fun invocation disk =>
  (.ok ⟨some (if invocation.program = "ps" then 0 else 1), [112, 117, 109, 97], []⟩, disk)

theorem probesQuietly_serverLauncher : serverLauncher.ProbesQuietly := fun _ _ _ => rfl

/-- A project with a running server and an earlier export. -/
def exportedDisk : Disk :=
  (((((((Disk.blank.insert ["Gemfile".toList] (.file false (.text [])))
    |>.insert ["config".toList] .folder)
    |>.insert ["config".toList, "routes.rb".toList] (.file false (.text [])))
    |>.insert ["tmp".toList] .folder)
    |>.insert ["tmp".toList, "pids".toList] .folder)
    |>.insert ["tmp".toList, "pids".toList, "server.pid".toList] (.file false (.text "7")))
    |>.insert ["build".toList] .folder)
    |>.insert ["build".toList, "index.html".toList] (.file false (.text "earlier"))

def serverSetting : Setting := ⟨serverLauncher, "/", ⟨[], [], [], [], ".settings.yaml", fun _ => []⟩⟩

/-- The operator leaves the question about a missing crawler, and the earlier export stays. -/
theorem perform_refused_exported :
    ((perform ⟨.build true, "/", false⟩).on serverSetting (Session.start exportedDisk (some [.escape]))).2.disk
        = exportedDisk
      ∧ ∀ launcher, serverLauncher.ProbesLike launcher →
        (perform ⟨.build true, "/", false⟩).on { serverSetting with launcher }
            (Session.start exportedDisk (some [.escape]))
          = (perform ⟨.build true, "/", false⟩).on serverSetting
            (Session.start exportedDisk (some [.escape])) :=
  perform_refused (by simp) probesQuietly_serverLauncher (by decide +kernel)

end Command

end SiteScaffold
