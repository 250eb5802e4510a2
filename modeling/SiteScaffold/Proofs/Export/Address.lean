/-
The address of the local server. The crawler is given it as an address (`siteUrl`), the
folder that it keeps the pages in is looked for under the host and the port of the server
(`hostFolder`), and references in pages are looked for with both written out
(`Html.imageOnServer`). An address leaves out the port that addresses have by default, the
other two never do. So the three agree on every port but that one (`authority_eq_hostFolder_iff`),
and a reference to an image on the server is led to the images on every port but that one
(`Html.rewrite_onServer`).
-/
import SiteScaffold.Export.Mirror
import SiteScaffold.Proofs.Export.NameKind

namespace SiteScaffold.Export

variable {port : Nat} {host rest : Text}

-- ================================================================ the host and port

/-- The host and the port of an address, as they are written: between the two slashes behind
its scheme and the next one. -/
def authority (url : Text) : Text := ((url.dropWhile (· ≠ '/')).drop 2).takeWhile (· ≠ '/')

theorem authority_http (hhost : '/' ∉ host) :
    authority ("http://".toList ++ (host ++ '/' :: rest)) = host := by
  have hpos : ∀ c ∈ host, decide (c ≠ '/') = true := fun c hc => decide_eq_true fun h => hhost (h ▸ hc)
  calc authority ("http://".toList ++ (host ++ '/' :: rest))
      = (host ++ '/' :: rest).takeWhile (· ≠ '/') := rfl
    _ = host ++ ('/' :: rest).takeWhile (· ≠ '/') := List.takeWhile_append_of_pos hpos
    _ = host := by simp

/-- The host and port that the crawler is given. -/
def servedAt (port : Nat) : Text := if port = 80 then "localhost" else hostFolder port

theorem siteUrl_eq (port : Nat) : siteUrl port = "http://".toList ++ (servedAt port ++ ['/']) := by
  unfold siteUrl servedAt
  by_cases hport : port = 80
  · rw [if_pos hport, if_pos hport]
    rfl
  · rw [if_neg hport, if_neg hport]
    show "http://localhost:".toList ++ Text.ofNat port ++ ['/']
      = "http://".toList ++ ("localhost:".toList ++ Text.ofNat port ++ ['/'])
    have hfront : "http://localhost:".toList = "http://".toList ++ "localhost:".toList := by decide
    rw [hfront]
    simp only [List.append_assoc]

theorem notMem_hostFolder {c : Char} (hdigit : c.isDigit = false) (hc : c ∉ "localhost:".toList) :
    c ∉ hostFolder port := by
  intro hmem
  rcases List.mem_append.1 hmem with hmem | hmem
  · exact hc hmem
  · exact Html.Relocated.notMem_ofNat hdigit hmem

theorem notMem_servedAt {c : Char} (hdigit : c.isDigit = false) (hc : c ∉ "localhost:".toList) :
    c ∉ servedAt port := by
  unfold servedAt
  split
  · have hfront : ∀ c ∈ "localhost".toList, c ∈ "localhost:".toList := by decide
    exact fun hmem => hc (hfront c hmem)
  · exact notMem_hostFolder hdigit hc

theorem authority_siteUrl (port : Nat) : authority (siteUrl port) = servedAt port := by
  rw [siteUrl_eq]
  exact authority_http (notMem_servedAt (by decide) (by decide))

/-- The crawler is given the host and the port under which its folder is looked for, unless
the port is the one that addresses leave out. -/
theorem authority_eq_hostFolder_iff : authority (siteUrl port) = hostFolder port ↔ port ≠ 80 := by
  rw [authority_siteUrl, servedAt]
  by_cases hport : port = 80
  · have hne : "localhost".toList ≠ hostFolder 80 := by decide
    rw [if_pos hport, hport]
    exact iff_of_false hne (by simp)
  · rw [if_neg hport]
    exact iff_of_true rfl hport

end SiteScaffold.Export

namespace SiteScaffold.Export.Html

open Pattern

variable {front name : Text} {goesOn : Text → Prop}

-- ============================================================ references on the server

/-- A reference to a file on the local server. -/
def onServer (port : Nat) (name : Text) : Text := inQuotes (siteUrl port ++ name)

/-- Behind the quotation mark it goes on with the host, whose one letter that folders start
with goes on otherwise. -/
theorem onServer_eq (port : Nat) (name : Text) : ∃ mid, 'a' ∉ mid
    ∧ onServer port name = '"' :: ("http://loc".toList ++ 'a' :: 'l' :: (mid ++ '/' :: (name ++ ['"']))) := by
  have hmid : ∃ mid, 'a' ∉ mid ∧ servedAt port = "loc".toList ++ 'a' :: 'l' :: mid := by
    unfold servedAt
    split
    · exact ⟨"host", by decide, rfl⟩
    · refine ⟨"host:".toList ++ Text.ofNat port, ?_, rfl⟩
      have hdigits : 'a' ∉ Text.ofNat port := Relocated.notMem_ofNat (by decide)
      simpa using hdigits
  obtain ⟨mid, hmem, hserved⟩ := hmid
  refine ⟨mid, hmem, ?_⟩
  rw [onServer, siteUrl_eq, hserved, inQuotes]
  have hfront : "http://loc".toList = "http://".toList ++ "loc".toList := by decide
  rw [hfront]
  simp

/-- What starts at the assets stands nowhere in it. -/
theorem quiet_onServer (hname : ∀ c ∈ name, inName c) (hlead : '/' ∈ front) (port : Nat) :
    Quiet ('a' :: 's' :: front) goesOn (onServer port name) := by
  obtain ⟨mid, hmem, heq⟩ := onServer_eq port name
  have hrest : Quiet ('a' :: 's' :: front) goesOn (name ++ ['"']) :=
    quiet_of_notMem (c := '/') (by simp [hlead]) (slash_notMem_inQuotes hname)
  have hhost : Quiet ('a' :: 's' :: front) goesOn ('l' :: (mid ++ '/' :: (name ++ ['"']))) := by
    have hslash := quiet_cons.2 ⟨not_leads_cons (c := '/') (by decide), hrest⟩
    exact quiet_cons.2 ⟨not_leads_cons (by decide), hslash.append hmem⟩
  have hletter : ¬ Leads ('a' :: 's' :: front) goesOn ('a' :: 'l' :: (mid ++ '/' :: (name ++ ['"']))) := by
    intro h
    obtain ⟨s, htext, -⟩ := h
    have hne := (List.cons_eq_cons.1 (List.cons_eq_cons.1 htext).2).1
    exact absurd hne (by decide)
  rw [heq]
  refine quiet_cons.2 ⟨not_leads_cons (by decide), ?_⟩
  exact (quiet_cons.2 ⟨hletter, hhost⟩).append (by decide)

/-- So the rules for what stands below the assets leave it alone. -/
theorem leads_onServer (hname : ∀ c ∈ name, inName c) (port : Nat) :
    AssetKind.ledOrder.foldl lead (relocate moduleReference "assets/js/" (onServer port name))
      = onServer port name := by
  have hmodules : relocate moduleReference "assets/js/" (onServer port name) = onServer port name :=
    relocate_of_quiet (fun _ _ => startsAt_moduleReference)
      (quiet_onServer hname (show '/' ∈ "sets/controllers/".toList by decide) port)
  have hassets : ∀ kind, lead (onServer port name) kind = onServer port name := fun kind =>
    relocate_of_quiet (fun _ _ => startsAt_assetReference (lists_extensionOf kind))
      (quiet_onServer hname (show '/' ∈ "sets/".toList by decide) port)
  rw [hmodules]
  simp only [AssetKind.ledOrder, List.foldl_cons, List.foldl_nil, hassets]

/-- What the rule for images on the server makes of a reference that starts with it. -/
theorem relocate_imageOnServer (hname : IsFileName imageExtensions name) (port : Nat) :
    relocate (imageOnServer port) "assets/img/"
        (inQuotes ("http://localhost:".toList ++ Text.ofNat port ++ ['/'] ++ name))
      = inQuotes ("assets/img/".toList ++ name) := by
  have hin := hname.inName lists_imageExtension
  have hnames : NamesFile imageExtensions (segment (name ++ ['"'])) := by
    obtain ⟨stem, x, heq, hne, -, hx⟩ := hname
    rw [segment_quoted hin]
    exact ⟨stem, x, [], by simpa using heq, hne, hx, rfl⟩
  have hstarts : (imageOnServer port).StartsAt (some '"')
      ("http://localhost:".toList ++ Text.ofNat port ++ ['/'] ++ (name ++ ['"'])) :=
    (startsAt_imageOnServer port).2 ⟨_, rfl, hnames⟩
  cases hmatch : (imageOnServer port).matchAt ⟨some '"', _⟩ with
  | none => exact absurd hstarts (matchAt_eq_none_iff_not_startsAt.1 hmatch)
  | some hit =>
      obtain ⟨l, n, rest, hsplit, htext, hgroup, hlead, -⟩ :=
        hit_fileWith lists_imageExtension (by simp) hmatch
      obtain rfl : l = "http://localhost:".toList ++ Text.ofNat port ++ ['/'] := by
        simp only [matches_append, matches_literal] at hlead
        obtain ⟨_, _, rfl, ⟨_, _, rfl, rfl, rfl⟩, rfl⟩ := hlead
        rfl
      have hrest : name ++ ['"'] = n ++ rest := List.append_cancel_left hsplit
      have hslash : '/' ∉ rest := by
        intro hmem
        have hall := slash_notMem_inQuotes hin
        rw [hrest] at hall
        exact hall (List.mem_append_right _ hmem)
      have hne : hit.text ≠ [] := by simp [htext]
      have htail : hit.text ++ rest
          = "http://localhost:".toList ++ Text.ofNat port ++ ['/'] ++ (name ++ ['"']) := by
        rw [htext, hrest]
        simp
      have hpage : inQuotes ("http://localhost:".toList ++ Text.ofNat port ++ ['/'] ++ name)
          = ['"'] ++ (hit.text ++ rest) := by
        rw [htail, inQuotes]
        simp
      have hquote : (imageOnServer port).Clear none ['"'] (hit.text ++ rest) := by
        refine clear_cons.2 ⟨?_, clear_nil⟩
        rw [List.nil_append, matchAt_eq_none_iff_not_startsAt, startsAt_imageOnServer]
        exact not_leads_cons (by decide)
      have hback : (imageOnServer port).Clear (lastAfter none (['"'] ++ hit.text)) rest [] := by
        intro u v htext' _
        rw [List.append_nil, matchAt_eq_none_iff_not_startsAt, startsAt_imageOnServer]
        exact quiet_of_notMem (c := '/') (by simp) hslash u v htext'
      rw [← htail] at hmatch
      rw [hpage, relocate, rewrite_of_hit hquote hmatch hne hback, hgroup, List.append_assoc, ← hrest, inQuotes]
      simp

/-- The address with the port that addresses leave out stands nowhere in one that leaves it
out. -/
theorem quiet_default (hname : ∀ c ∈ name, inName c) :
    Quiet ("http://localhost:" ++ Text.ofNat 80 ++ ['/']) goesOn (onServer 80 name) := by
  have hslash : '/' ∉ name ++ ['"'] := slash_notMem_inQuotes hname
  have hcolon : ¬ Leads ("http://localhost:" ++ Text.ofNat 80 ++ ['/']) goesOn
      ("http://localhost".toList ++ '/' :: (name ++ ['"'])) := by
    intro h
    obtain ⟨s, htext, -⟩ := h
    have hcut : "http://localhost".toList ++ '/' :: (name ++ ['"'])
        = "http://localhost".toList ++ ':' :: (Text.ofNat 80 ++ ['/'] ++ s) := htext
    exact absurd (List.cons_eq_cons.1 (List.append_cancel_left hcut)).1 (by decide)
  have hhost : Quiet ("http://localhost:" ++ Text.ofNat 80 ++ ['/']) goesOn
      ("ttp://local".toList ++ 'h' :: ("ost/".toList ++ (name ++ ['"']))) := by
    refine Quiet.append (by decide) (quiet_cons.2 ⟨?_, Quiet.append (by decide) ?_⟩)
    · intro h
      obtain ⟨s, htext, -⟩ := h
      exact absurd (List.cons_eq_cons.1 (List.cons_eq_cons.1 htext).2).1 (by decide)
    · exact quiet_of_notMem (c := '/') (by simp) hslash
  have hpage : onServer 80 name = '"' :: ("http://localhost".toList ++ '/' :: (name ++ ['"'])) := by
    show inQuotes ("http://localhost/".toList ++ name) = _
    rw [inQuotes, List.append_assoc]
    rfl
  rw [hpage]
  exact quiet_cons.2 ⟨not_leads_cons (by decide), quiet_cons.2 ⟨hcolon, hhost⟩⟩

/-- A reference to an image at the address that the crawler is given is led to the images,
unless the port is the one that addresses leave out; then it stays. -/
theorem rewrite_onServer (hname : IsFileName imageExtensions name) (port : Nat) :
    rewrite port (onServer port name)
      = if port = 80 then onServer port name else inQuotes ("assets/img/".toList ++ name) := by
  rw [rewrite_eq_leads, leads_onServer (hname.inName lists_imageExtension)]
  by_cases hport : port = 80
  · rw [if_pos hport, hport]
    exact relocate_of_quiet (fun _ _ => startsAt_imageOnServer 80)
      (quiet_default (hname.inName lists_imageExtension))
  · rw [if_neg hport, onServer, siteUrl, if_neg hport]
    exact relocate_imageOnServer hname port

end SiteScaffold.Export.Html
