/-
What a patch of a file reports about the file. A patch writes whatever new content its fragment
answers with and reports that it was applied, so the report can be relied on only if a fragment
never answers with the content that it was given (`insert_ne_self`, `remove_ne_self`). What is put
in makes a content longer and what is taken out makes it shorter, but for the root route: its line
takes the place of others. There the second insertion decides. It has nothing to do where the
first one has been (`of_wholeLines_eq`), so a first one that answers has changed something.

What is left is to follow a patch over the disk (`patched_cases`): it writes in one case only, and
a new text has new bytes.
-/
import SiteScaffold.Proofs.Patch.BlankRuns
import SiteScaffold.Proofs.Patch.Controller
import SiteScaffold.Proofs.Patch.HostFile
import SiteScaffold.Proofs.Patch.RootRoute

namespace SiteScaffold

variable {t u : Text}

/-- A text into which something is put is another one. -/
theorem Text.put_ne {x new y : Text} (hnew : new ≠ []) : x ++ (new ++ y) ≠ x ++ y := by
  intro h
  have hlength := congrArg List.length h
  simp only [List.length_append] at hlength
  have hpos := List.length_pos_iff.2 hnew
  omega

/-- A text is told by its bytes. -/
theorem Utf8.encode_injective (h : encode t = encode u) : t = u := by
  have hbytes : t.utf8Encode = u.utf8Encode := congrArg List.toByteArray h
  have hdecoded := congrArg ByteArray.utf8Decode? hbytes
  rw [List.utf8Decode?_utf8Encode, List.utf8Decode?_utf8Encode] at hdecoded
  exact congrArg Array.toList (Option.some.inj hdecoded)

namespace Patch

open Pattern

-- ============================================================================= what is put in

namespace Route

variable {action : Text}

theorem insertPage_ne_self (page action : Text) : insertPage page action t ≠ .ok (some t) := by
  intro h
  rcases insertPage_cases h with ⟨hnone, -⟩ | ⟨x, y, rfl, -, hnew⟩
  · cases hnone
  · exact Text.put_ne (by simp [line]) (Option.some.inj hnew).symm

/-- A root line that takes the place of another one, or of several, is not the line that stood
there: otherwise there would have been nothing to do. -/
theorem insertRoot_ne_self (haction : '\n' ∉ action) : insertRoot action t ≠ .ok (some t) := by
  intro h
  obtain ⟨front, back, hnormal, -⟩ := insertRoot_eq_some haction h
  obtain ⟨hfront, hback⟩ := hnormal.not_root
  obtain ⟨-, hagain⟩ := of_wholeLines_eq haction hnormal.lines hfront hback
  rw [hagain] at h
  cases h

end Route

theorem ControllerAction.insert_ne_self (name : Text) : insert name t ≠ .ok (some t) := by
  intro h
  rcases insert_cases h with ⟨hnone, -⟩ | ⟨x, y, rfl, -, -, hnew⟩
  · cases hnone
  · exact Text.put_ne (by simp [emptyBlock_text]) (Option.some.inj hnew).symm

theorem LayoutDirective.insert_ne_self (layout view hostClass : Text) :
    insert layout view hostClass t ≠ .ok (some t) := by
  intro h
  obtain ⟨-, front, hit, back, hfirst, hpatched⟩ := insert_eq_ok h
  have hsame : front ++ hit.text ++ (directive layout view ++ back) = t := (Option.some.inj hpatched).symm
  rw [(of_first?_eq_some hfirst).1, ← List.append_assoc front] at hsame
  exact Text.put_ne (List.append_ne_nil_of_right_ne_nil _ (by decide)) hsame

-- ============================================================================ what is taken out

namespace Route

theorem matchesLines_rootLine : rootLine.MatchesLines := by
  refine matchesLines_append (fun before u rest h => ?_) fun _ _ _ => of_matches_lineBreak
  obtain ⟨_, _, rfl, h, -⟩ := matches_append.1 h
  obtain ⟨_, _, rfl, h, -⟩ := matches_append.1 h
  obtain ⟨_, _, rfl, h, hroot⟩ := matches_append.1 h
  obtain ⟨_, _, rfl, hstart, -⟩ := matches_append.1 h
  obtain rfl := matches_literal.1 hroot
  exact ⟨(matches_lineStart.1 hstart).2, by simp⟩

/-- A match that is dropped is what the pieces lack then. -/
theorem length_dropHit {test : Hit → Bool} {pieces : List Piece} (h : dropHit test pieces = some u) :
    ∃ hit, .hit hit ∈ pieces ∧ u.length + hit.text.length = (pieces.flatMap Piece.text).length := by
  unfold dropHit at h
  rw [List.span_eq_takeWhile_dropWhile] at h
  split at h
  next => cases h
  next front dropped back hspan =>
    obtain ⟨rfl, hrest⟩ := Prod.mk.inj hspan
    have hpieces : pieces = pieces.takeWhile (fun piece => !piece.hit?.any test) ++ dropped :: back := by
      rw [← hrest, List.takeWhile_append_dropWhile]
    have hdropped : ¬ (!dropped.hit?.any test) = true := by
      have hhead := List.head?_dropWhile_not (fun piece => !piece.hit?.any test) pieces
      rw [hrest] at hhead
      simpa using hhead
    cases dropped with
    | plain c => exact absurd rfl hdropped
    | hit hit =>
        refine ⟨hit, ?_, ?_⟩
        · rw [hpieces]
          simp
        · rw [← Option.some.inj h]
          conv_rhs => rw [hpieces]
          simp only [List.flatMap_append, List.flatMap_cons, List.length_append, Piece.text]
          omega

theorem removeRoot_ne_self (action : Text) : removeRoot action t ≠ some t := by
  intro h
  obtain ⟨hit, hmem, hlength⟩ := length_dropHit h
  rw [pieces_eq] at hmem
  obtain ⟨u, rest, -, hmatch⟩ := exists_of_mem_piecesFrom hmem
  have hpos := List.length_pos_iff.2 (matchesLines_rootLine.hit_ne_nil hmatch)
  have htext : (rootLine.pieces t).flatMap Piece.text = t :=
    flatten_pieces (fun _ _ _ => matchesLines_rootLine.hit_ne_nil) t
  rw [htext] at hlength
  omega

theorem removePage_ne_self (page : Text) : removePage page t ≠ some t := by
  intro h
  unfold removePage at h
  split at h
  next hoccurs =>
    have hshorter := length_delete_lt (fun _ _ _ => (Directives.matchesLines_pageLine page).hit_ne_nil) hoccurs
    rw [Option.some.inj h] at hshorter
    exact Nat.lt_irrefl _ hshorter
  next => cases h

end Route

namespace ControllerAction

theorem length_cutRuns_le (run : Nat) (t : Text) : (Text.cutRuns run t).length ≤ t.length := by
  induction t generalizing run with
  | nil => exact Nat.le_refl _
  | cons c t ih =>
      unfold Text.cutRuns
      split
      · split
        · exact Nat.succ_le_succ (ih _)
        · exact Nat.le_succ_of_le (ih _)
      · exact Nat.succ_le_succ (ih _)

theorem remove_ne_self (name : Text) : remove name t ≠ some t := by
  intro h
  unfold remove at h
  split at h
  next hoccurs =>
    have hshorter := length_delete_lt (fun _ _ _ => (Directives.matchesLines_block name).hit_ne_nil) hoccurs
    have hcut := length_cutRuns_le 0 ((block name).delete t)
    rw [← collapseBlankRuns_eq, Option.some.inj h] at hcut
    omega
  next => cases h

end ControllerAction

theorem LayoutDirective.remove_ne_self (layout : Text) : remove layout t ≠ some t := by
  intro h
  obtain ⟨hoccurs, hsame⟩ := remove_eq_some_iff.1 h
  have hshorter := length_delete_lt (fun _ _ _ => (Directives.matchesLines_directiveLine layout).hit_ne_nil) hoccurs
  rw [← hsame] at hshorter
  exact Nat.lt_irrefl _ hshorter

namespace Fragment

/-- Whether the fragment is one of lines that are found again one by one. A target with a newline
would break the root route into two lines, which an insertion could put in the place of the same
two. The shell is no such fragment: taking it out looks for tags in any place and drops them only
where they have a line to themselves. -/
def IsLined : Fragment → Prop
  | .rootRoute target => '\n' ∉ target
  | .shell => False
  | _ => True

instance : (fragment : Fragment) → Decidable fragment.IsLined
  | .rootRoute target => inferInstanceAs (Decidable ('\n' ∉ target))
  | .shell => inferInstanceAs (Decidable False)
  | .route .. | .action _ | .layout .. => inferInstanceAs (Decidable True)

variable {fragment : Fragment}

theorem insert_ne_self (hlined : fragment.IsLined) (t : Text) : fragment.insert t ≠ .ok (some t) := by
  cases fragment with
  | route page target => exact Route.insertPage_ne_self page target
  | rootRoute target => exact Route.insertRoot_ne_self hlined
  | action name => exact ControllerAction.insert_ne_self name
  | layout name view hostClass => exact LayoutDirective.insert_ne_self name view hostClass
  | shell => exact hlined.elim

theorem remove_ne_self (hlined : fragment.IsLined) (t : Text) : fragment.remove t ≠ some t := by
  cases fragment with
  | route page target => exact Route.removePage_ne_self page
  | rootRoute target => exact Route.removeRoot_ne_self target
  | action name => exact ControllerAction.remove_ne_self name
  | layout name view hostClass => exact LayoutDirective.remove_ne_self name
  | shell => exact hlined.elim

end Fragment

-- =========================================================================== what is reported

namespace HostFile

variable {disk : Disk} {path : Text} {fragment : Fragment} {patch : Text → Except Refusal (Option Text)}

/-- The bytes of the file at a path, if there is one that can be read. -/
def bytesAt (disk : Disk) (path : Text) : Option Bytes := (disk.read path).toOption.map Content.bytes

theorem bytesAt_of_readText (h : disk.readText path = .ok t) : bytesAt disk path = some (Utf8.encode t) := by
  unfold Disk.readText at h
  unfold bytesAt
  cases hread : disk.read path with
  | error fault =>
      rw [hread] at h
      cases h
  | ok content =>
      rw [hread] at h
      cases content with
      | text s =>
          cases h
          rfl
      | binary _ | archive _ => cases h

/-- A patch of a file by what it does to a text. -/
def patched (path : Text) (fragment : Fragment) (patch : Text → Except Refusal (Option Text)) : Edit Outcome := do
  let content ← Edit.readText path
  match patch content with
  | .ok new => settle path fragment new
  | .error refusal => Edit.fail (refusal.cause path)

theorem insert_eq_patched : insert path fragment = patched path fragment fragment.insert := rfl

theorem remove_eq_patched :
    remove path fragment = patched path fragment fun content => .ok (fragment.remove content) := rfl

/-- A file with a text in it is patched as the text is. -/
theorem patched_on (fragment : Fragment) (patch : Text → Except Refusal (Option Text))
    (h : disk.readText path = .ok t) :
    match patch t with
    | .ok (some new) => ∃ disk', (patched path fragment patch).on disk = (.ok .applied, disk')
        ∧ disk'.readText path = .ok new
    | .ok none => (patched path fragment patch).on disk = (.ok .unchanged, disk)
    | .error refusal => (patched path fragment patch).on disk = (.error ⟨[], refusal.cause path⟩, disk) := by
  obtain ⟨k, hholds⟩ := Disk.readText_eq_ok_iff.1 h
  have hread := Edit.on_readText hholds
  unfold patched
  rw [Edit.on_bind_ok hread]
  cases hpatch : patch t with
  | error refusal => rfl
  | ok new =>
      cases new with
      | none => rfl
      | some new =>
          obtain ⟨disk', hsettle, hnew, -⟩ := settle_on fragment hholds (some new)
          exact ⟨disk', hsettle, Disk.readText_eq_ok_iff.2 ⟨k, hnew⟩⟩

/-- A patch leaves the disk alone, or writes what becomes of the text in the file. -/
theorem patched_cases (fragment : Fragment) (patch : Text → Except Refusal (Option Text)) (disk : Disk) (path : Text) :
    ((patched path fragment patch).on disk).2 = disk
        ∧ (((patched path fragment patch).on disk).1 = .ok .unchanged
          ∨ ∃ failure, ((patched path fragment patch).on disk).1 = .error failure)
      ∨ ∃ t new, disk.readText path = .ok t ∧ patch t = .ok (some new)
        ∧ ((patched path fragment patch).on disk).1 = .ok .applied
        ∧ ((patched path fragment patch).on disk).2.readText path = .ok new := by
  cases hread : disk.readText path with
  | error fault =>
      have hfails : (patched path fragment patch).on disk = _ := Edit.on_bind_error (Edit.on_readText_error hread)
      rw [hfails]
      exact .inl ⟨rfl, .inr ⟨_, rfl⟩⟩
  | ok t =>
      have hon := patched_on fragment patch hread
      split at hon
      next new hpatch =>
        obtain ⟨disk', hedit, hnew⟩ := hon
        rw [hedit]
        exact .inr ⟨t, new, rfl, hpatch, rfl, hnew⟩
      next =>
        rw [hon]
        exact .inl ⟨rfl, .inl rfl⟩
      next =>
        rw [hon]
        exact .inl ⟨rfl, .inr ⟨_, rfl⟩⟩

/-- Whether an edit reports faithfully what it does to the file at a path, where `patch` says what
becomes of a text. -/
structure Faithful (path : Text) (patch : Text → Except Refusal (Option Text)) (edit : Edit Outcome) : Prop where
  /-- The report that the file was patched means that its bytes changed. -/
  applied : ∀ disk, (edit.on disk).1 = .ok .applied ↔ bytesAt (edit.on disk).2 path ≠ bytesAt disk path
  /-- They are then what became of the text that was in it. -/
  written : ∀ disk, (edit.on disk).1 = .ok .applied → ∃ t new, disk.readText path = .ok t ∧ patch t = .ok (some new)
    ∧ (edit.on disk).2.readText path = .ok new ∧ bytesAt (edit.on disk).2 path = some (Utf8.encode new)
  /-- Any other report, and a failure, means that they did not. -/
  kept : ∀ disk, (edit.on disk).1 = .ok .unchanged ∨ (∃ failure, (edit.on disk).1 = .error failure)
    ↔ bytesAt (edit.on disk).2 path = bytesAt disk path
  /-- Then the disk is as it was. -/
  untouched : ∀ disk, (edit.on disk).1 ≠ .ok .applied → (edit.on disk).2 = disk
  /-- What becomes of the text decides which of them is reported. -/
  decided : ∀ disk t, disk.readText path = .ok t → (edit.on disk).1 = match patch t with
    | .ok (some _) => .ok .applied
    | .ok none => .ok .unchanged
    | .error refusal => .error ⟨[], refusal.cause path⟩

theorem patched_faithful (path : Text) (fragment : Fragment) (hne : ∀ t, patch t ≠ .ok (some t)) :
    Faithful path patch (patched path fragment patch) := by
  -- whatever is written has other bytes than what was there
  have hcases : ∀ disk, ((patched path fragment patch).on disk).2 = disk
        ∧ (((patched path fragment patch).on disk).1 = .ok .unchanged
          ∨ ∃ failure, ((patched path fragment patch).on disk).1 = .error failure)
      ∨ ((patched path fragment patch).on disk).1 = .ok .applied
        ∧ bytesAt ((patched path fragment patch).on disk).2 path ≠ bytesAt disk path := by
    intro disk
    refine (patched_cases fragment patch disk path).imp_right ?_
    rintro ⟨t, new, hread, hpatch, happlied, hnew⟩
    refine ⟨happlied, ?_⟩
    rw [bytesAt_of_readText hread, bytesAt_of_readText hnew]
    intro hsame
    obtain rfl := Utf8.encode_injective (Option.some.inj hsame)
    exact hne _ hpatch
  refine ⟨fun disk => ?_, fun disk happlied => ?_, fun disk => ?_, fun disk hother => ?_, fun disk t hread => ?_⟩
  · rcases hcases disk with ⟨hsame, hreport⟩ | ⟨happlied, hchanged⟩
    · rw [hsame]
      rcases hreport with hreport | ⟨failure, hreport⟩
      · simp [hreport]
      · simp [hreport]
    · exact iff_of_true happlied hchanged
  · rcases patched_cases fragment patch disk path with ⟨-, hreport⟩ | ⟨t, new, hread, hpatch, -, hnew⟩
    · rw [happlied] at hreport
      rcases hreport with hreport | ⟨failure, hreport⟩
      · cases hreport
      · cases hreport
    · exact ⟨t, new, hread, hpatch, hnew, bytesAt_of_readText hnew⟩
  · rcases hcases disk with ⟨hsame, hreport⟩ | ⟨happlied, hchanged⟩
    · exact iff_of_true hreport (by rw [hsame])
    · refine iff_of_false ?_ hchanged
      rw [happlied]
      rintro (hreport | ⟨failure, hreport⟩)
      · cases hreport
      · cases hreport
  · exact ((hcases disk).resolve_right fun h => hother h.1).1
  · have hon := patched_on fragment patch hread
    split at hon
    next new hpatch =>
      obtain ⟨disk', hedit, -⟩ := hon
      rw [hedit]
    next hpatch => rw [hon]
    next refusal hpatch => rw [hon]

/-- No fragment of lines answers with the content that it was given, and so putting one into a file
and taking one out of it report faithfully. Whatever the path leads to, the file was patched
exactly if its bytes changed, and they are then what the fragment made of it; it was left alone, or
the edit failed, exactly if they did not. -/
theorem reports_faithfully (hlined : fragment.IsLined) :
    (∀ t, fragment.insert t ≠ .ok (some t) ∧ fragment.remove t ≠ some t)
      ∧ ∀ path, Faithful path fragment.insert (insert path fragment)
        ∧ Faithful path (fun t => .ok (fragment.remove t)) (remove path fragment) := by
  have hremove : ∀ t, (.ok (fragment.remove t) : Except Refusal (Option Text)) ≠ .ok (some t) :=
    fun t h => fragment.remove_ne_self hlined t (Except.ok.inj h)
  refine ⟨fun t => ⟨fragment.insert_ne_self hlined t, fragment.remove_ne_self hlined t⟩, fun path => ⟨?_, ?_⟩⟩
  · rw [insert_eq_patched]
    exact patched_faithful path fragment (fragment.insert_ne_self hlined)
  · rw [remove_eq_patched]
    exact patched_faithful path fragment hremove

/-- An action is put into a small controller, where taking it out has nothing to do and a layout for
a class that is not there is refused. -/
theorem reports_faithfully_small :
    let file : Text := "/home.rb"
    let action : Fragment := .action "about"
    let layout : Fragment := .layout "landing" "about" "AboutController"
    let missing : Failure := ⟨[], .anchorMissing "'class AboutController < ApplicationController'" file⟩
    action.IsLined ∧ layout.IsLined
      ∧ ((insert file action).on Controller.smallDisk).1 = .ok .applied
      ∧ bytesAt ((insert file action).on Controller.smallDisk).2 file ≠ bytesAt Controller.smallDisk file
      ∧ (remove file action).on Controller.smallDisk = (.ok .unchanged, Controller.smallDisk)
      ∧ (insert file layout).on Controller.smallDisk = (.error missing, Controller.smallDisk) := by
  intro file action layout missing
  have haction : action.IsLined := by decide
  have hlayout : layout.IsLined := by decide
  obtain ⟨hput, htaken⟩ := (reports_faithfully haction).2 file
  obtain ⟨hrefused, -⟩ := (reports_faithfully hlayout).2 file
  have hread := Controller.readText_smallDisk
  have happlied : ((insert file action).on Controller.smallDisk).1 = .ok .applied :=
    (hput.decided _ _ hread).trans (by decide +kernel)
  have hunchanged : ((remove file action).on Controller.smallDisk).1 = .ok .unchanged :=
    (htaken.decided _ _ hread).trans (by decide +kernel)
  have herror : ((insert file layout).on Controller.smallDisk).1 = .error missing :=
    (hrefused.decided _ _ hread).trans (by decide +kernel)
  refine ⟨haction, hlayout, happlied, (hput.applied _).1 happlied, ?_, ?_⟩
  · exact Prod.ext hunchanged (htaken.untouched _ (by simp [hunchanged]))
  · exact Prod.ext herror (hrefused.untouched _ (by simp [herror]))

end HostFile

end Patch

end SiteScaffold
