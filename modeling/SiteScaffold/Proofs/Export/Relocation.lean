/-
Relocating references, one rule after another, leaves nothing to relocate: a page
that went through all rules goes through them again unchanged
(`rewrite_rewrite`).

# Why no rule makes work for itself or for another one

A rule replaces the lead of a reference by a folder such as `assets/js/` and
leaves the file name and everything else alone. Compare a text with what a rule
makes of it (`Relocated`), and suppose a reference starts somewhere in the new
text:

- not inside a folder: the letter that the reference starts with occurs in the
  folder at the front at most, and there the folder's own name follows, which is
  no file name and not `controllers` (`not_leads_folder`);
- not inside a file name: the lead of the reference has a slash and no dot, while
  a file name has a dot and no slash (`Quiet.name_append`);
- so outside of both. There the lead stood in the old text too, and what goes on
  after it went on after it in the old text (`Relocated.namesFile`,
  `Relocated.namesScript`): the old text had the reference at the same place.

The last step needs the old text to be without the reference, which is known for
two reasons: the rule itself would have replaced it, or an earlier rule has. Both
are the condition `kept` of `Relocated`.
-/
import SiteScaffold.Proofs.Export.Reference
import SiteScaffold.Proofs.Text.Lines

namespace SiteScaffold.Export.Html

open Pattern

variable {t new s : Text} {xs ys : List Text} {folder lead : Text} {kept goesOn : Text → Prop}

-- ====================================================== texts without a lead

/-- Nowhere in the text does a lead stand that goes on as told. -/
def Quiet (lead : Text) (goesOn : Text → Prop) (t : Text) : Prop :=
  ∀ u v, t = u ++ v → ¬ Leads lead goesOn v

theorem quiet_cons {c : Char} :
    Quiet lead goesOn (c :: t) ↔ ¬ Leads lead goesOn (c :: t) ∧ Quiet lead goesOn t := by
  constructor
  · intro h
    exact ⟨h [] (c :: t) rfl, fun u v htext => h (c :: u) v (by rw [htext]; rfl)⟩
  · rintro ⟨hhere, htail⟩ u v htext
    cases u with
    | nil =>
        obtain rfl : c :: t = v := htext
        exact hhere
    | cons d u => exact htail u v (List.cons_eq_cons.1 htext).2

theorem not_leads_cons {a c : Char} (hne : c ≠ a) : ¬ Leads (a :: lead) goesOn (c :: t) := by
  rintro ⟨s, htext, -⟩
  exact hne (List.cons_eq_cons.1 htext).1

theorem quiet_nil {a : Char} : Quiet (a :: lead) goesOn [] := by
  rintro u v htext ⟨s, hlead, -⟩
  obtain ⟨-, rfl⟩ := List.append_eq_nil_iff.1 htext.symm
  cases hlead

/-- A lead does not stand in a text without one of its characters. -/
theorem quiet_of_notMem {c : Char} (hlead : c ∈ lead) (ht : c ∉ t) : Quiet lead goesOn t := by
  rintro u v rfl ⟨s, rfl, -⟩
  simp [hlead] at ht

/-- A text without the letter that a lead starts with may stand in front. -/
theorem Quiet.append {a : Char} {u : Text} (hmem : a ∉ u) (h : Quiet (a :: lead) goesOn t) :
    Quiet (a :: lead) goesOn (u ++ t) := by
  induction u with
  | nil => exact h
  | cons c u ih =>
      obtain ⟨hne, hmem⟩ := not_or.1 (mt List.mem_cons.2 hmem)
      exact quiet_cons.2 ⟨not_leads_cons (Ne.symm hne), ih hmem⟩

/-- A file name may stand in front: it has a dot and no slash, a lead has a slash
and no dot. -/
theorem Quiet.name_append {a : Char} {name : Text} (hslash : '/' ∈ a :: lead)
    (hdot : '.' ∉ a :: lead) (hext : ∀ x ∈ xs, a ∉ x) (hname : IsFileName xs name)
    (h : Quiet (a :: lead) goesOn t) : Quiet (a :: lead) goesOn (name ++ t) := by
  obtain ⟨stem, x, rfl, -, hstem, hx⟩ := hname
  induction stem with
  | nil =>
      have hmem : a ∉ '.' :: x := by
        rw [List.mem_cons, not_or]
        exact ⟨fun heq => hdot (heq ▸ List.mem_cons_self ..), hext x hx⟩
      exact h.append hmem
  | cons c stem ih =>
      refine quiet_cons.2 ⟨?_, ih fun d hd => hstem d (List.mem_cons_of_mem _ hd)⟩
      rintro ⟨s, htext, -⟩
      have hsplit : (c :: stem) ++ '.' :: (x ++ t) = (a :: lead) ++ s := by
        rw [← htext]
        simp
      obtain ⟨y, hshort, -⟩ := Text.exists_append_of_notMem hsplit hdot
      have hmem : '/' ∈ c :: stem := by
        rw [hshort]
        exact List.mem_append_left _ hslash
      have hin := hstem _ hmem
      cases hin

-- =================================================== folders, leads and names

/-- The names of the folders that references are led to. -/
def folderNames : List Text := ["js", "css", "img", "fonts"]

/-- A folder that references are led to, as it is written in front of a name. -/
def IsFolder (folder : Text) : Prop :=
  ∃ d ∈ folderNames, folder = "assets/".toList ++ (d ++ ['/'])

/-- What a rule takes for the lead of a reference: a path that starts at the
assets or at a server and ends in a slash. -/
structure IsLead (l : Text) : Prop where
  starts : (∃ r, l = "assets/".toList ++ r) ∨ ∃ r, l = "http:/".toList ++ r
  ends : ∃ c k, l = c :: (k ++ ['/']) ∧ inPath c ∧ ∀ d ∈ k, inPath d

theorem NamesFile.dot_mem (h : NamesFile xs s) : '.' ∈ s := by
  obtain ⟨stem, x, r, rfl, -⟩ := h
  simp

theorem segment_of_slash {d : Text} (hd : ∀ c ∈ d, inName c) : segment (d ++ '/' :: t) = d := by
  rw [segment_append hd, segment_cons, if_neg (by decide), List.append_nil]

theorem segment_folder (hfolder : IsFolder folder) :
    segment (folder ++ t) = "assets".toList := by
  obtain ⟨d, -, rfl⟩ := hfolder
  rfl

/-- No file is named right after the lead of a folder. -/
theorem not_namesFile_folderName {d : Text} (hd : d ∈ folderNames) :
    ¬ NamesFile xs (segment (d ++ '/' :: t)) := by
  have hclass : ∀ d ∈ folderNames, (∀ c ∈ d, inName c) ∧ '.' ∉ d := by decide
  obtain ⟨hin, hdot⟩ := hclass d hd
  rw [segment_of_slash hin]
  exact fun h => hdot h.dot_mem

theorem not_leads_folder (xs : List Text) (t : Text) (hfolder : IsFolder folder) :
    ¬ Leads "assets/" (fun s => NamesFile xs (segment s)) (folder ++ t) := by
  obtain ⟨d, hd, rfl⟩ := hfolder
  rintro ⟨s, htext, hname⟩
  have hs : s = d ++ '/' :: t := by
    have hcancel : "assets/".toList ++ (d ++ '/' :: t) = "assets/".toList ++ s := by
      rw [← htext]
      simp
    exact (List.append_cancel_left hcancel).symm
  rw [hs] at hname
  exact not_namesFile_folderName hd hname

theorem not_leads_controllers_folder (goesOn : Text → Prop) (t : Text) (hfolder : IsFolder folder) :
    ¬ Leads "assets/controllers/" goesOn (folder ++ t) := by
  have hnames : ∀ d ∈ folderNames, d.take 2 ≠ "co".toList ∧ 2 ≤ d.length := by decide
  obtain ⟨d, hd, rfl⟩ := hfolder
  rintro ⟨s, htext, -⟩
  obtain ⟨hne, hlen⟩ := hnames d hd
  have hcancel : "assets/".toList ++ (d ++ '/' :: t)
      = "assets/".toList ++ ("controllers/".toList ++ s) := by
    calc "assets/".toList ++ (d ++ '/' :: t) = "assets/".toList ++ (d ++ ['/']) ++ t := by simp
      _ = "assets/controllers/".toList ++ s := htext
      _ = _ := rfl
  have htake := congrArg (List.take 2) (List.append_cancel_left hcancel)
  rw [List.take_append_of_le_length hlen] at htake
  exact hne htake

/-- The letter at the front of a folder occurs nowhere else in it. -/
theorem folder_eq_cons (hfolder : IsFolder folder) : ∃ φ, folder = 'a' :: φ ∧ 'a' ∉ φ := by
  have hnames : ∀ d ∈ folderNames, 'a' ∉ "ssets/".toList ++ (d ++ ['/']) := by decide
  obtain ⟨d, hd, rfl⟩ := hfolder
  exact ⟨_, rfl, hnames d hd⟩

-- ================================================================ relocating

/-- What a rule makes of a text: a lead and the file name after it become the
folder and the same name, all else stays; and where a character stays, the text
from it on is one to be kept. -/
inductive Relocated (kept : Text → Prop) (xs : List Text) (folder : Text) : Text → Text → Prop
  | nil : Relocated kept xs folder [] []
  | plain (c : Char) (t new : Text) (hkept : kept (c :: t)) (htail : Relocated kept xs folder t new) :
      Relocated kept xs folder (c :: t) (c :: new)
  | moved (l name t new : Text) (hlead : IsLead l) (hname : IsFileName xs name)
      (htail : Relocated kept xs folder t new) :
      Relocated kept xs folder (l ++ (name ++ t)) (folder ++ (name ++ new))

namespace Relocated

/-- Off the letter that folders start with, both texts go on alike. -/
theorem of_cons {c : Char} (hfolder : IsFolder folder) (hc : c ≠ 'a')
    (h : Relocated kept xs folder t (c :: s)) : ∃ u, t = c :: u ∧ Relocated kept xs folder u s := by
  obtain ⟨φ, rfl, -⟩ := folder_eq_cons hfolder
  generalize hnew : c :: s = new at h
  cases h with
  | nil => cases hnew
  | plain d t new hkept htail =>
      obtain ⟨rfl, rfl⟩ := List.cons_eq_cons.1 hnew
      exact ⟨t, rfl, htail⟩
  | moved l name t new hlead hname htail => exact absurd (List.cons_eq_cons.1 hnew).1 hc

/-- The same along a text without that letter. -/
theorem of_append {u : Text} (hfolder : IsFolder folder) (hu : 'a' ∉ u)
    (h : Relocated kept xs folder t (u ++ s)) :
    ∃ v, t = u ++ v ∧ Relocated kept xs folder v s := by
  induction u generalizing t with
  | nil => exact ⟨t, rfl, h⟩
  | cons c u ih =>
      obtain ⟨hne, hu⟩ := not_or.1 (mt List.mem_cons.2 hu)
      obtain ⟨v, rfl, htail⟩ := of_cons hfolder (Ne.symm hne) h
      obtain ⟨w, rfl, hrest⟩ := ih hu htail
      exact ⟨w, rfl, hrest⟩

/-- The condition of the characters that stay may be weakened. -/
theorem mono {kept' : Text → Prop} (hmono : ∀ u v, t = u ++ v → v ≠ [] → kept' v)
    (h : Relocated kept xs folder t new) : Relocated kept' xs folder t new := by
  induction h with
  | nil => exact .nil
  | plain c t new hkept htail ih =>
      refine .plain c t new (hmono [] _ rfl (by simp)) (ih fun u v htext => ?_)
      exact hmono (c :: u) v (by rw [htext]; rfl)
  | moved l name t new hlead hname htail ih =>
      refine .moved l name t new hlead hname (ih fun u v htext => ?_)
      exact hmono (l ++ (name ++ u)) v (by rw [htext]; simp)

/-- Up to the end of the segment the two texts differ at most where the name of a
server's scheme became the start of a folder. -/
theorem segment_eq (hfolder : IsFolder folder) (h : Relocated kept xs folder t new) :
    segment new = segment t ∨
      ∃ u, segment new = u ++ "assets".toList ∧ segment t = u ++ "http:".toList := by
  induction h with
  | nil => exact .inl rfl
  | plain c t new hkept htail ih =>
      rw [segment_cons, segment_cons]
      split
      · rcases ih with heq | ⟨u, hnew, ht⟩
        · exact .inl (by rw [heq])
        · exact .inr ⟨c :: u, by rw [hnew]; rfl, by rw [ht]; rfl⟩
      · exact .inl rfl
  | moved l name t new hlead hname htail ih =>
      rw [segment_folder hfolder]
      rcases hlead.starts with ⟨r, rfl⟩ | ⟨r, rfl⟩
      · exact .inl rfl
      · exact .inr ⟨[], rfl, rfl⟩

/-- Whether the segment goes on with the start of a folder or with the name of a
scheme is all one to the file name at its front. -/
theorem namesFile_of_assets {u : Text} (hys : ∀ y ∈ ys, 'a' ∉ y)
    (h : NamesFile ys (u ++ "assets".toList)) : NamesFile ys (u ++ "http:".toList) := by
  obtain ⟨stem, x, r, hsplit, hne, hx, hr⟩ := h
  obtain ⟨y, rfl, hy⟩ := Text.exists_append_of_notMem_right hsplit.symm (by decide)
  have hletter : y ++ 'a' :: "ssets".toList = x ++ r := hy.symm
  obtain ⟨z, rfl, rfl⟩ := Text.exists_append_of_notMem hletter (hys x hx)
  cases z with
  | nil =>
      have hword : Text.isWord 'a' = true := by decide
      have hnone : Text.isWord 'a' = false := hr
      rw [hword] at hnone
      cases hnone
  | cons c z => exact ⟨stem, x, c :: z ++ "http:".toList, by simp, hne, hx, hr⟩

/-- A file named in the new text, after some text in front, is named in the old
text. -/
theorem namesFile (hfolder : IsFolder folder) (hys : ∀ y ∈ ys, 'a' ∉ y)
    (h : Relocated kept xs folder t new) {u : Text} (hname : NamesFile ys (u ++ segment new)) :
    NamesFile ys (u ++ segment t) := by
  rcases h.segment_eq hfolder with heq | ⟨v, hnew, ht⟩
  · rw [← heq]
    exact hname
  · rw [hnew, ← List.append_assoc] at hname
    rw [ht, ← List.append_assoc]
    exact namesFile_of_assets hys hname

end Relocated

-- ==================================================== scripts along a path

/-- A script file is named in this segment or a later one. -/
def NamesScriptFrom (t : Text) : Prop :=
  NamesFile ["js".toList] (segment t) ∨ NamesScriptLater t

/-- Up to the next slash no later segment starts. -/
theorem namesScriptLater_of_append {u : Text} (hu : '/' ∉ u) (h : NamesScriptLater (u ++ t)) :
    NamesScriptLater t := by
  induction u with
  | nil => exact h
  | cons c u ih =>
      obtain ⟨hne, hu⟩ := not_or.1 (mt List.mem_cons.2 hu)
      rcases namesScriptLater_cons.1 h with ⟨hc, -⟩ | ⟨-, htail⟩
      · exact absurd hc.symm hne
      · exact ih hu htail

theorem namesScriptLater_slash :
    NamesScriptLater ('/' :: t) ↔ NamesScriptFrom t := by
  rw [namesScriptLater_cons]
  constructor
  · rintro (⟨-, h⟩ | ⟨-, h⟩)
    · exact .inl h
    · exact .inr h
  · rintro (h | h)
    · exact .inl ⟨rfl, h⟩
    · exact .inr ⟨rfl, h⟩

theorem inPath_of_inName {c : Char} (h : inName c) : inPath c := by
  simp only [inName, inPath, Bool.and_eq_true] at h ⊢
  exact ⟨h.1.2, h.2⟩

theorem slash_notMem_of_inName {name : Text} (hname : ∀ c ∈ name, inName c) : '/' ∉ name := by
  intro hmem
  have hin := hname _ hmem
  cases hin

/-- After a folder no script is named but in what follows the folder. -/
theorem namesScriptFrom_of_folder {φ : Text} (hfolder : IsFolder ('a' :: φ))
    (h : NamesScriptLater (φ ++ t)) : NamesScriptFrom t := by
  have hnames : ∀ d ∈ folderNames, '/' ∉ d := by decide
  obtain ⟨d, hd, heq⟩ := hfolder
  obtain rfl : φ = "ssets".toList ++ '/' :: (d ++ ['/']) := (List.cons_eq_cons.1 heq).2
  have hshape : "ssets".toList ++ '/' :: (d ++ ['/']) ++ t
      = "ssets".toList ++ '/' :: (d ++ '/' :: t) := by simp
  rw [hshape] at h
  rcases namesScriptLater_slash.1 (namesScriptLater_of_append (by decide) h) with hname | hlater
  · exact absurd hname (not_namesFile_folderName hd)
  · exact namesScriptLater_slash.1 (namesScriptLater_of_append (hnames d hd) hlater)

/-- After a lead scripts are named as in what follows it. -/
theorem namesScriptLater_of_lead {k : Text} (hk : ∀ c ∈ k, inPath c) (h : NamesScriptFrom t) :
    NamesScriptLater (k ++ ['/'] ++ t) := by
  rw [List.append_assoc]
  exact namesScriptLater_append hk (namesScriptLater_slash.2 h)

namespace Relocated

variable {extension : Pattern}

theorem js_notMem : ∀ y ∈ ["js".toList], 'a' ∉ y := by decide

/-- What follows a relocated lead names a script in the old text if it does in the
new one. -/
theorem namesScriptFrom_name {name : Text} (hfolder : IsFolder folder)
    (hname : ∀ c ∈ name, inName c) (h : Relocated kept xs folder t new)
    (hlater : NamesScriptLater new → NamesScriptLater t)
    (hfrom : NamesScriptFrom (name ++ new)) : NamesScriptFrom (name ++ t) := by
  rcases hfrom with hfile | hscript
  · rw [segment_append hname] at hfile
    refine .inl ?_
    rw [segment_append hname]
    exact h.namesFile hfolder js_notMem hfile
  · have hnew := namesScriptLater_of_append (slash_notMem_of_inName hname) hscript
    refine .inr (namesScriptLater_append ?_ (hlater hnew))
    exact fun c hc => inPath_of_inName (hname c hc)

/-- A script named later in the new text is named later in the old text. -/
theorem namesScriptLater (hfolder : IsFolder folder) (hext : Lists extension xs)
    (h : Relocated kept xs folder t new) : NamesScriptLater new → NamesScriptLater t := by
  induction h with
  | nil => exact id
  | plain c t new hkept htail ih =>
      intro hlater
      rcases namesScriptLater_cons.1 hlater with ⟨rfl, hfile⟩ | ⟨hc, hlater⟩
      · exact namesScriptLater_cons.2 (.inl ⟨rfl, htail.namesFile (u := []) hfolder js_notMem hfile⟩)
      · exact namesScriptLater_cons.2 (.inr ⟨hc, ih hlater⟩)
  | moved l name t new hlead hname htail ih =>
      intro hlater
      obtain ⟨φ, rfl, -⟩ := folder_eq_cons hfolder
      obtain ⟨c, k, rfl, hc, hk⟩ := hlead.ends
      have hrest := namesScriptLater_of_append (u := ['a']) (by decide) hlater
      have hfrom := namesScriptFrom_name hfolder (hname.inName hext) htail ih
        (namesScriptFrom_of_folder hfolder hrest)
      exact namesScriptLater_cons.2 (.inr ⟨hc, namesScriptLater_of_lead hk hfrom⟩)

/-- A script named in the new text is named in the old text. -/
theorem namesScript (hfolder : IsFolder folder) (hext : Lists extension xs)
    (h : Relocated kept xs folder t new) (hscript : NamesScript new) : NamesScript t := by
  rcases hscript with hfile | ⟨c, s, rfl, hc, hlater⟩
  · exact .inl (h.namesFile (u := []) hfolder js_notMem hfile)
  · generalize hnew : c :: s = new at h
    cases h with
    | nil => cases hnew
    | plain d t new hkept htail =>
        obtain ⟨rfl, rfl⟩ := List.cons_eq_cons.1 hnew
        exact .inr ⟨c, t, rfl, hc, htail.namesScriptLater hfolder hext hlater⟩
    | moved l name t new hlead hname htail =>
        obtain ⟨φ, rfl, -⟩ := folder_eq_cons hfolder
        obtain ⟨d, k, rfl, hd, hk⟩ := hlead.ends
        obtain ⟨rfl, rfl⟩ : c = 'a' ∧ s = φ ++ (name ++ new) := List.cons_eq_cons.1 hnew
        have hfrom := namesScriptFrom_name hfolder (hname.inName hext) htail
          (htail.namesScriptLater hfolder hext) (namesScriptFrom_of_folder hfolder hlater)
        exact .inr ⟨d, _, rfl, hd, namesScriptLater_of_lead hk hfrom⟩

-- ============================================== nothing is left to relocate

/-- The new text is without a lead if the old one was where characters stay, and
the lead, off its first letter, is passed over as it is. -/
theorem quiet {a : Char} (lead : Text) (hfolder : ∀ w, Quiet (a :: lead) goesOn w → Quiet (a :: lead) goesOn (folder ++ w))
    (hxs : ∀ x ∈ xs, a ∉ x) (hslash : '/' ∈ a :: lead) (hdot : '.' ∉ a :: lead)
    (hpass : ∀ u s, Relocated (¬ Leads (a :: lead) goesOn ·) xs folder u (lead ++ s) →
      goesOn s → ∃ v, u = lead ++ v ∧ goesOn v)
    (h : Relocated (¬ Leads (a :: lead) goesOn ·) xs folder t new) :
    Quiet (a :: lead) goesOn new := by
  induction h with
  | nil => exact quiet_nil
  | plain c t new hkept htail ih =>
      refine quiet_cons.2 ⟨?_, ih⟩
      rintro ⟨s, htext, hs⟩
      obtain ⟨rfl, rfl⟩ : c = a ∧ new = lead ++ s := List.cons_eq_cons.1 htext
      obtain ⟨v, rfl, hv⟩ := hpass t s htail hs
      exact hkept ⟨v, rfl, hv⟩
  | moved l name t new hlead hname htail ih =>
      exact hfolder _ (ih.name_append hslash hdot hxs hname)

/-- The lead of an asset, off its first letter, is passed over as it is. -/
theorem quiet_assets (hfolder : IsFolder folder) (hxs : ∀ x ∈ xs, 'a' ∉ x)
    (hys : ∀ y ∈ ys, 'a' ∉ y)
    (h : Relocated (¬ Leads "assets/" (fun s => NamesFile ys (segment s)) ·) xs folder t new) :
    Quiet "assets/" (fun s => NamesFile ys (segment s)) new := by
  refine quiet (a := 'a') "ssets/".toList (fun w hw => ?_) hxs (by decide) (by decide)
    (fun u s hu hs => ?_) h
  · have hhead := not_leads_folder ys w hfolder
    obtain ⟨φ, rfl, hφ⟩ := folder_eq_cons hfolder
    exact quiet_cons.2 ⟨hhead, hw.append hφ⟩
  · obtain ⟨v, rfl, hv⟩ := hu.of_append hfolder (by decide)
    exact ⟨v, rfl, hv.namesFile (u := []) hfolder hys hs⟩

theorem quiet_controllers (hfolder : IsFolder folder) (hext : Lists extension xs)
    (hxs : ∀ x ∈ xs, 'a' ∉ x)
    (h : Relocated (¬ Leads "assets/controllers/" NamesScript ·) xs folder t new) :
    Quiet "assets/controllers/" NamesScript new := by
  refine quiet (a := 'a') "ssets/controllers/".toList (fun w hw => ?_) hxs (by decide)
    (by decide) (fun u s hu hs => ?_) h
  · have hhead := not_leads_controllers_folder NamesScript w hfolder
    obtain ⟨φ, rfl, hφ⟩ := folder_eq_cons hfolder
    exact quiet_cons.2 ⟨hhead, hw.append hφ⟩
  · obtain ⟨v, rfl, hv⟩ := hu.of_append hfolder (by decide)
    exact ⟨v, rfl, hv.namesScript hfolder hext hs⟩

/-- The letter that folders start with is passed over where another word goes on
than theirs. -/
theorem of_letter {c : Char} (hfolder : IsFolder folder) (hc : c ≠ 's')
    (h : Relocated kept xs folder t ('a' :: c :: s)) :
    ∃ u, t = 'a' :: u ∧ Relocated kept xs folder u (c :: s) := by
  obtain ⟨d, -, rfl⟩ := hfolder
  generalize hnew : 'a' :: c :: s = new at h
  cases h with
  | nil => cases hnew
  | plain b t new hkept htail =>
      obtain ⟨rfl, rfl⟩ := List.cons_eq_cons.1 hnew
      exact ⟨t, rfl, htail⟩
  | moved l name t new hlead hname htail =>
      obtain ⟨-, htail⟩ := List.cons_eq_cons.1 hnew
      exact absurd (List.cons_eq_cons.1 htail).1 hc

/-- A numeral is made of digits. -/
theorem isDigit_of_mem_ofNat {port : Nat} {c : Char} (h : c ∈ Text.ofNat port) : c.isDigit :=
  Nat.isDigit_of_mem_toDigits (by decide) (by decide) h

theorem notMem_ofNat {port : Nat} {c : Char} (hc : c.isDigit = false) : c ∉ Text.ofNat port := by
  intro h
  rw [isDigit_of_mem_ofNat h] at hc
  cases hc

/-- The address of a server, off its first letter, is passed over as it is. -/
theorem of_server {port : Nat} (hfolder : IsFolder folder)
    (h : Relocated kept xs folder t ("ttp://localhost:".toList ++ Text.ofNat port ++ ['/'] ++ s)) :
    ∃ u, t = "ttp://localhost:".toList ++ Text.ofNat port ++ ['/'] ++ u
      ∧ Relocated kept xs folder u s := by
  have hshape : ∀ w : Text, "ttp://localhost:".toList ++ Text.ofNat port ++ ['/'] ++ w
      = "ttp://loc".toList ++ 'a' :: ("lhost:".toList ++ Text.ofNat port ++ ['/'] ++ w) := by
    intro w
    simp
  have hport : 'a' ∉ "lhost:".toList ++ Text.ofNat port ++ ['/'] := by
    have hdigits : 'a' ∉ Text.ofNat port := notMem_ofNat (by decide)
    simpa using hdigits
  rw [hshape] at h
  obtain ⟨v, rfl, hv⟩ := h.of_append hfolder (by decide)
  obtain ⟨w, rfl, hw⟩ := of_letter (c := 'l') hfolder (by decide) hv
  obtain ⟨u, rfl, hu⟩ := hw.of_append hfolder hport
  exact ⟨u, (hshape u).symm, hu⟩

theorem quiet_server {port : Nat} (hfolder : IsFolder folder) (hxs : ∀ x ∈ xs, 'h' ∉ x)
    (hys : ∀ y ∈ ys, 'a' ∉ y)
    (h : Relocated (¬ Leads ("http://localhost:" ++ Text.ofNat port ++ ['/'])
      (fun s => NamesFile ys (segment s)) ·) xs folder t new) :
    Quiet ("http://localhost:" ++ Text.ofNat port ++ ['/'])
      (fun s => NamesFile ys (segment s)) new := by
  have hnames : ∀ d ∈ folderNames, 'h' ∉ "assets/".toList ++ (d ++ ['/']) := by decide
  have hdot : '.' ∉ "http://localhost:".toList ++ Text.ofNat port ++ ['/'] := by
    have hdigits : '.' ∉ Text.ofNat port := notMem_ofNat (by decide)
    simpa using hdigits
  refine quiet (a := 'h') ("ttp://localhost:".toList ++ Text.ofNat port ++ ['/'])
    (fun w hw => ?_) hxs (by simp) hdot (fun u s hu hs => ?_) h
  · obtain ⟨d, hd, rfl⟩ := hfolder
    exact hw.append (hnames d hd)
  · obtain ⟨v, rfl, hv⟩ := hu.of_server hfolder
    exact ⟨v, rfl, hv.namesFile (u := []) hfolder hys hs⟩

end Relocated

-- ================================================================== the rules

/-- What a rule matches is not empty. -/
theorem hit_ne_nil {leadPattern extension : Pattern} (hext : Lists extension xs)
    (hfree : leadPattern.captureFree)
    (hlead : ∀ before l rest, leadPattern.Matches before l rest → IsLead l) (before : Option Char)
    (t : Text) (hit : Hit)
    (hmatch : (leadPattern ++ fileWith extension).matchAt ⟨before, t⟩ = some hit) : hit.text ≠ [] := by
  obtain ⟨l, name, rest, -, htext, -, hl, -⟩ := hit_fileWith hext hfree hmatch
  obtain ⟨c, k, rfl, -⟩ := (hlead _ _ _ hl).ends
  rw [htext]
  simp

/-- What a rule makes of a text. -/
theorem relocated_relocate {leadPattern extension : Pattern} (hext : Lists extension xs)
    (hfree : leadPattern.captureFree)
    (hlead : ∀ before l rest, leadPattern.Matches before l rest → IsLead l)
    (hstarts : ∀ before t, (leadPattern ++ fileWith extension).StartsAt before t ↔
      Leads lead goesOn t) (folder t : Text) :
    Relocated (¬ Leads lead goesOn ·) xs folder t
      (relocate (leadPattern ++ fileWith extension) folder t) := by
  have hrewritten := rewritten_rewrite (hit_ne_nil hext hfree hlead) (fun hit => folder ++ hit.group 1) t
  rw [← relocate] at hrewritten
  generalize relocate (leadPattern ++ fileWith extension) folder t = new at hrewritten ⊢
  generalize none = before at hrewritten
  induction hrewritten with
  | nil => exact .nil
  | plain before c t new hhere htail ih =>
      refine .plain c t new (fun hleads => ?_) ih
      exact matchAt_eq_none_iff_not_startsAt.1 hhere ((hstarts _ _).2 hleads)
  | hit before h t new hne hhere htail ih =>
      obtain ⟨l, name, rest, hsplit, htext, hgroup, hl, hname⟩ := hit_fileWith hext hfree hhere
      have hrest : t = rest := by
        rw [htext, List.append_assoc] at hsplit
        exact List.append_cancel_left (List.append_cancel_left hsplit)
      show Relocated _ xs folder (h.text ++ t) (folder ++ h.group 1 ++ new)
      rw [htext, hgroup, List.append_assoc, List.append_assoc]
      exact .moved l name t new (hlead _ _ _ hl) hname ih

/-- A rule leaves a text alone in which what it looks for starts nowhere. -/
theorem rewrite_of_quiet {p : Pattern} {write : Hit → Text}
    (hstarts : ∀ before t, p.StartsAt before t ↔ Leads lead goesOn t) (h : Quiet lead goesOn t) :
    p.rewrite write t = t := by
  refine rewrite_of_clear fun u v htext hne => ?_
  rw [List.append_nil, matchAt_eq_none_iff_not_startsAt, hstarts]
  exact h u v htext

theorem relocate_of_quiet {p : Pattern}
    (hstarts : ∀ before t, p.StartsAt before t ↔ Leads lead goesOn t) (h : Quiet lead goesOn t) :
    relocate p folder t = t :=
  rewrite_of_quiet hstarts h

theorem isLead_assets {before : Option Char} {l rest : Text}
    (h : (literal "assets/".toList).Matches before l rest) : IsLead l := by
  obtain rfl := matches_literal.1 h
  exact ⟨.inl ⟨[], rfl⟩, 'a', "ssets".toList, rfl, by decide, by decide⟩

theorem isLead_controllers {before : Option Char} {l rest : Text}
    (h : (literal "assets/controllers/".toList ++ optional (oneOrMore inPath ++ "/")).Matches
      before l rest) : IsLead l := by
  simp only [matches_append, matches_literal, matches_optional, matches_oneOrMore] at h
  obtain ⟨_, v, rfl, rfl, ⟨a, _, rfl, ⟨-, ha⟩, rfl⟩ | rfl⟩ := h
  · refine ⟨.inl ⟨"controllers/".toList ++ (a ++ ['/']), rfl⟩, 'a',
      "ssets/controllers/".toList ++ a, by simp, by decide, fun c hc => ?_⟩
    rcases List.mem_append.1 hc with hc | hc
    · have hfixed : ∀ c ∈ "ssets/controllers/".toList, inPath c := by decide
      exact hfixed c hc
    · exact ha c hc
  · exact ⟨.inl ⟨"controllers/".toList, rfl⟩, 'a', "ssets/controllers".toList, rfl,
      by decide, by decide⟩

theorem inPath_of_isDigit {c : Char} (h : c.isDigit) : inPath c := by
  have hrange : '0' ≤ c ∧ c ≤ '9' := by
    simpa [Char.isDigit, Char.le_def, UInt32.le_iff_toNat_le] using h
  exact Text.all_between (a := '0') (b := '9') (by decide) hrange.1 hrange.2

theorem isLead_server {port : Nat} {before : Option Char} {l rest : Text}
    (h : (literal "http://localhost:".toList ++ literal (Text.ofNat port) ++ "/").Matches
      before l rest) : IsLead l := by
  simp only [matches_append, matches_literal] at h
  obtain ⟨_, _, rfl, ⟨_, _, rfl, rfl, rfl⟩, rfl⟩ := h
  refine ⟨.inr ⟨"/localhost:".toList ++ (Text.ofNat port ++ ['/']), by simp⟩, 'h',
    "ttp://localhost:".toList ++ Text.ofNat port, by simp, by decide, fun c hc => ?_⟩
  rcases List.mem_append.1 hc with hc | hc
  · have hfixed : ∀ c ∈ "ttp://localhost:".toList, inPath c := by decide
    exact hfixed c hc
  · exact inPath_of_isDigit (Relocated.isDigit_of_mem_ofNat hc)

theorem relocated_modules (t : Text) :
    Relocated (¬ Leads "assets/controllers/" NamesScript ·) ["js".toList] "assets/js/" t
      (relocate moduleReference "assets/js/" t) :=
  relocated_relocate lists_js rfl (fun _ _ _ => isLead_controllers)
    (fun _ _ => startsAt_moduleReference) _ t

theorem relocated_assets {extension : Pattern} (hext : Lists extension xs) (folder t : Text) :
    Relocated (¬ Leads "assets/" (fun s => NamesFile xs (segment s)) ·) xs folder t
      (relocate (assetReference extension) folder t) :=
  relocated_relocate hext (captureFree_literal _) (fun _ _ _ => isLead_assets)
    (fun _ _ => startsAt_assetReference hext) folder t

theorem relocated_images (port : Nat) (t : Text) :
    Relocated (¬ Leads ("http://localhost:" ++ Text.ofNat port ++ ['/'])
        (fun s => NamesFile imageExtensions (segment s)) ·) imageExtensions "assets/img/" t
      (relocate (imageOnServer port) "assets/img/" t) :=
  relocated_relocate lists_imageExtension (by simp) (fun _ _ _ => isLead_server)
    (fun _ _ => startsAt_imageOnServer port) _ t

-- ============================================================ all rules in turn

/-- No rule finds anything to relocate on the page. -/
structure Settled (port : Nat) (page : Text) : Prop where
  modules : Quiet "assets/controllers/" NamesScript page
  scripts : Quiet "assets/" (fun s => NamesFile ["js".toList] (segment s)) page
  stylesheets : Quiet "assets/" (fun s => NamesFile ["css".toList] (segment s)) page
  images : Quiet "assets/" (fun s => NamesFile imageExtensions (segment s)) page
  fonts : Quiet "assets/" (fun s => NamesFile fontExtensions (segment s)) page
  onServer : Quiet ("http://localhost:" ++ Text.ofNat port ++ ['/'])
    (fun s => NamesFile imageExtensions (segment s)) page

namespace Relocated

/-- A rule brings back no module that an earlier rule took away. -/
theorem keeps_controllers {extension : Pattern} (hfolder : IsFolder folder)
    (hext : Lists extension xs) (hxs : ∀ x ∈ xs, 'a' ∉ x) (h : Relocated kept xs folder t new)
    (hquiet : Quiet "assets/controllers/" NamesScript t) :
    Quiet "assets/controllers/" NamesScript new :=
  quiet_controllers hfolder hext hxs (h.mono fun u v htext _ => hquiet u v htext)

/-- A rule brings back no asset that an earlier rule took away. -/
theorem keeps_assets (hfolder : IsFolder folder) (hxs : ∀ x ∈ xs, 'a' ∉ x)
    (hys : ∀ y ∈ ys, 'a' ∉ y) (h : Relocated kept xs folder t new)
    (hquiet : Quiet "assets/" (fun s => NamesFile ys (segment s)) t) :
    Quiet "assets/" (fun s => NamesFile ys (segment s)) new :=
  quiet_assets hfolder hxs hys (h.mono fun u v htext _ => hquiet u v htext)

end Relocated

theorem isFolder_js : IsFolder "assets/js/" := ⟨"js", by decide, rfl⟩

theorem isFolder_css : IsFolder "assets/css/" := ⟨"css", by decide, rfl⟩

theorem isFolder_img : IsFolder "assets/img/" := ⟨"img", by decide, rfl⟩

theorem isFolder_fonts : IsFolder "assets/fonts/" := ⟨"fonts", by decide, rfl⟩

/-- No extension has the letter that the lead of an asset starts with. -/
theorem extensions_notMem :
    (∀ x ∈ ["js".toList], 'a' ∉ x) ∧ (∀ x ∈ ["css".toList], 'a' ∉ x)
      ∧ (∀ x ∈ imageExtensions, 'a' ∉ x) ∧ (∀ x ∈ fontExtensions, 'a' ∉ x) := by
  decide

/-- After all rules no rule finds anything to relocate: what a rule settles, those
after it keep. -/
theorem settled_rewrite (port : Nat) (page : Text) : Settled port (rewrite port page) := by
  obtain ⟨hjs, hcss, himg, hfont⟩ := extensions_notMem
  show Settled port (relocate (imageOnServer port) "assets/img/" _)
  have modules := relocated_modules page
  generalize relocate moduleReference "assets/js/" page = one at modules ⊢
  have scripts := relocated_assets lists_js "assets/js/" one
  generalize relocate (assetReference "js") "assets/js/" one = two at scripts ⊢
  have stylesheets := relocated_assets lists_css "assets/css/" two
  generalize relocate (assetReference "css") "assets/css/" two = three at stylesheets ⊢
  have images := relocated_assets lists_imageExtension "assets/img/" three
  generalize relocate (assetReference imageExtension) "assets/img/" three = four at images ⊢
  have fonts := relocated_assets lists_fontExtension "assets/fonts/" four
  generalize relocate (assetReference fontExtension) "assets/fonts/" four = five at fonts ⊢
  have onServer := relocated_images port five
  have noModule := modules.quiet_controllers isFolder_js lists_js hjs
  have noModule := scripts.keeps_controllers isFolder_js lists_js hjs noModule
  have noModule := stylesheets.keeps_controllers isFolder_css lists_css hcss noModule
  have noModule := images.keeps_controllers isFolder_img lists_imageExtension himg noModule
  have noModule := fonts.keeps_controllers isFolder_fonts lists_fontExtension hfont noModule
  have noScript := scripts.quiet_assets isFolder_js hjs hjs
  have noScript := stylesheets.keeps_assets isFolder_css hcss hjs noScript
  have noScript := images.keeps_assets isFolder_img himg hjs noScript
  have noScript := fonts.keeps_assets isFolder_fonts hfont hjs noScript
  have noStylesheet := stylesheets.quiet_assets isFolder_css hcss hcss
  have noStylesheet := images.keeps_assets isFolder_img himg hcss noStylesheet
  have noStylesheet := fonts.keeps_assets isFolder_fonts hfont hcss noStylesheet
  have noImage := images.quiet_assets isFolder_img himg himg
  have noImage := fonts.keeps_assets isFolder_fonts hfont himg noImage
  have noFont := fonts.quiet_assets isFolder_fonts hfont hfont
  exact {
    modules := onServer.keeps_controllers isFolder_img lists_imageExtension himg noModule
    scripts := onServer.keeps_assets isFolder_img himg hjs noScript
    stylesheets := onServer.keeps_assets isFolder_img himg hcss noStylesheet
    images := onServer.keeps_assets isFolder_img himg himg noImage
    fonts := onServer.keeps_assets isFolder_img himg hfont noFont
    onServer := onServer.quiet_server isFolder_img (by decide) himg
  }

/-- A page on which no rule finds anything is left alone. -/
theorem rewrite_of_settled {port : Nat} {page : Text} (h : Settled port page) :
    rewrite port page = page := by
  unfold rewrite
  dsimp only
  rw [relocate_of_quiet (fun _ _ => startsAt_moduleReference) h.modules,
    relocate_of_quiet (fun _ _ => startsAt_assetReference lists_js) h.scripts,
    relocate_of_quiet (fun _ _ => startsAt_assetReference lists_css) h.stylesheets,
    relocate_of_quiet (fun _ _ => startsAt_assetReference lists_imageExtension) h.images,
    relocate_of_quiet (fun _ _ => startsAt_assetReference lists_fontExtension) h.fonts,
    relocate_of_quiet (fun _ _ => startsAt_imageOnServer port) h.onServer]

/-- A second pass changes nothing: rewriting a page is idempotent for every port
and every page. -/
theorem rewrite_rewrite (port : Nat) (page : Text) :
    rewrite port (rewrite port page) = rewrite port page :=
  rewrite_of_settled (settled_rewrite port page)

end SiteScaffold.Export.Html
