/-
References in stylesheets. A `url(...)` token ends at the first closing bracket, so where
one starts it is known where it ends, and what it refers to is known but for white space
(`Token.unique`, `Token.trim_eq`). A token that is led to a folder becomes one that starts
with a slash and is never led again; so a second pass changes nothing (`rewrite_twice`).

What leads where is said once more without the function that finds it out: a relative
target refers to a file by its last segment, up to a query or a fragment (`Refers`), and
each piece of a sheet is led as that says (`led_pieces`). All other targets are foreign
(`foreign_iff`), and their tokens stay as they are.
-/
import Mathlib.Data.List.Forall2
import SiteScaffold.Export.Css
import SiteScaffold.Proofs.Pattern.Pieces
import SiteScaffold.Proofs.Text.Class
import SiteScaffold.Proofs.Text.Lines

namespace SiteScaffold.Export.Css

open Pattern

variable {before : Option Char} {body body' new rest rest' t t' url : Text}

-- ================================================================ tokens

/-- At most one quotation mark. -/
def MaybeQuote (q : Text) : Prop := q = [] ∨ ∃ c, isQuote c ∧ q = [c]

/-- A `url(...)` token with the given text between white space and quotation marks. -/
structure Token (body t : Text) : Prop where
  shape : ∃ a q q' b, t = "url(".toList ++ (a ++ (q ++ (body ++ (q' ++ (b ++ [')'])))))
    ∧ (∀ c ∈ a, Text.isBlank c) ∧ (∀ c ∈ b, Text.isBlank c) ∧ MaybeQuote q ∧ MaybeQuote q'
  ne_nil : body ≠ []
  inside : ∀ c ∈ body, (!isQuote c && c ≠ ')') = true

theorem accepts_urlToken {kept : List (Nat × Text)} (h : urlToken.Accepts before t rest kept) :
    ∃ body, kept = [(2, body)] ∧ Token body t := by
  have hquote : ∀ {before q rest}, (optional quote).Matches before q rest → MaybeQuote q := by
    intro before q rest h
    rcases matches_optional.1 h with hq | rfl
    · obtain ⟨c, hc, rfl⟩ := matches_one.1 hq
      exact .inr ⟨c, hc, rfl⟩
    · exact .inl rfl
  obtain ⟨_, _, rfl, _, _, rfl, h, hclose⟩ := accepts_append.1 h
  obtain ⟨_, b, rfl, _, _, rfl, h, hb⟩ := accepts_append.1 h
  obtain ⟨_, q', rfl, _, _, rfl, h, hq'⟩ := accepts_append.1 h
  obtain ⟨_, body, rfl, _, _, rfl, h, hcapture⟩ := accepts_append.1 h
  obtain ⟨_, q, rfl, _, _, rfl, h, hq⟩ := accepts_append.1 h
  obtain ⟨_, a, rfl, _, _, rfl, hopen, ha⟩ := accepts_append.1 h
  obtain ⟨inner, rfl, hinner⟩ := accepts_capture.1 hcapture
  obtain ⟨hbody, rfl⟩ := (accepts_iff rfl).1 hinner
  obtain ⟨hlead, rfl⟩ := (accepts_iff (captureFree_literal _)).1 hopen
  obtain ⟨hend, rfl⟩ := (accepts_iff (captureFree_literal _)).1 hclose
  obtain ⟨hblank, rfl⟩ := (accepts_iff rfl).1 ha
  obtain ⟨hblank', rfl⟩ := (accepts_iff rfl).1 hb
  obtain ⟨hmark, rfl⟩ := (accepts_iff rfl).1 hq
  obtain ⟨hmark', rfl⟩ := (accepts_iff rfl).1 hq'
  obtain rfl := matches_literal.1 hlead
  obtain rfl := matches_literal.1 hend
  obtain ⟨hne, hinside⟩ := matches_oneOrMore.1 hbody
  exact ⟨body, rfl, ⟨a, q, q', b, by simp, matches_many.1 hblank, matches_many.1 hblank',
    hquote hmark, hquote hmark'⟩, hne, hinside⟩

theorem Token.matches (h : Token body t) : urlToken.Matches before t rest := by
  have hquote : ∀ {before q rest}, MaybeQuote q → (optional quote).Matches before q rest := by
    intro before q rest h
    refine matches_optional.2 ?_
    rcases h with rfl | ⟨c, hc, rfl⟩
    · exact .inr rfl
    · exact .inl (matches_one.2 ⟨c, hc, rfl⟩)
  obtain ⟨⟨a, q, q', b, rfl, ha, hb, hq, hq'⟩, hne, hinside⟩ := h
  simp only [urlToken, matches_append, matches_capture]
  exact ⟨_, [')'], by simp, ⟨_, b, rfl, ⟨_, q', rfl, ⟨_, body, rfl, ⟨_, q, rfl, ⟨_, a, rfl,
    matches_literal.2 rfl, matches_many.2 ha⟩, hquote hq⟩, matches_oneOrMore.2 ⟨hne, hinside⟩⟩,
    hquote hq'⟩, matches_many.2 hb⟩, matches_literal.2 rfl⟩

theorem notMem_maybeQuote {q : Text} (h : MaybeQuote q) : ')' ∉ q := by
  rcases h with rfl | ⟨c, hc, rfl⟩
  · simp
  · intro hmem
    obtain rfl := List.mem_singleton.1 hmem
    cases hc

theorem notMem_blanks {a : Text} (h : ∀ c ∈ a, Text.isBlank c) : ')' ∉ a := by
  intro hmem
  have hblank := h _ hmem
  exact absurd hblank (by decide)

theorem Token.notMem_body (h : Token body t) : ')' ∉ body := by
  intro hmem
  have hin := h.inside _ hmem
  exact absurd hin (by decide)

/-- A token ends at the first closing bracket. -/
theorem Token.exists_front (h : Token body t) : ∃ front, t = front ++ [')'] ∧ ')' ∉ front := by
  have hbody := h.notMem_body
  obtain ⟨⟨a, q, q', b, rfl, ha, hb, hq, hq'⟩, -, -⟩ := h
  refine ⟨"url(".toList ++ (a ++ (q ++ (body ++ (q' ++ b)))), by simp, ?_⟩
  simp only [List.mem_append, not_or]
  exact ⟨by decide, notMem_blanks ha, notMem_maybeQuote hq, hbody, notMem_maybeQuote hq',
    notMem_blanks hb⟩

/-- Where a token starts it is known where it ends. -/
theorem Token.unique (h : Token body t) (h' : Token body' t') (heq : t ++ rest = t' ++ rest') :
    t = t' ∧ rest = rest' := by
  obtain ⟨front, rfl, hfront⟩ := h.exists_front
  obtain ⟨front', rfl, hfront'⟩ := h'.exists_front
  have hcut : front ++ ')' :: rest = front' ++ ')' :: rest' := by simpa using heq
  obtain ⟨y, rfl, hy⟩ := Text.exists_append_of_notMem hcut hfront'
  cases y with
  | nil =>
      rw [List.append_nil] at hcut ⊢
      exact ⟨rfl, (List.cons_eq_cons.1 (List.append_cancel_left hcut)).2⟩
  | cons c y =>
      obtain ⟨rfl, -⟩ := List.cons_eq_cons.1 hy
      simp at hfront

/-- What a token refers to is known but for white space. -/
theorem Token.trim_eq (h : Token body t) :
    Text.trim body = Text.trim ((t.drop 4).dropLast.filter (!isQuote ·)) := by
  obtain ⟨⟨a, q, q', b, rfl, ha, hb, hq, hq'⟩, -, hinside⟩ := h
  have hkeep : ∀ {s : Text}, (∀ c ∈ s, isQuote c = false) → s.filter (!isQuote ·) = s := by
    intro s hs
    exact List.filter_eq_self.2 fun c hc => by simp [hs c hc]
  have hquote : ∀ {q : Text}, MaybeQuote q → q.filter (!isQuote ·) = [] := by
    rintro q (rfl | ⟨c, hc, rfl⟩)
    · rfl
    · simp [hc]
  have hblank : ∀ {s : Text}, (∀ c ∈ s, Text.isBlank c) → ∀ c ∈ s, isQuote c = false := by
    intro s hs c hc
    cases hq : isQuote c with
    | false => rfl
    | true =>
        have hnot := Text.not_isBlank_of_isQuote hq
        rw [hs c hc] at hnot
        cases hnot
  have hbody : ∀ c ∈ body, isQuote c = false := by
    intro c hc
    have hin := hinside c hc
    simp only [Bool.and_eq_true, Bool.not_eq_true'] at hin
    exact hin.1
  have hinner : (("url(".toList ++ (a ++ (q ++ (body ++ (q' ++ (b ++ [')'])))))).drop 4).dropLast
      = a ++ (q ++ (body ++ (q' ++ b))) := by
    have hdrop : ("url(".toList ++ (a ++ (q ++ (body ++ (q' ++ (b ++ [')'])))))).drop 4
        = (a ++ (q ++ (body ++ (q' ++ b)))) ++ [')'] := by
      rw [List.drop_left' (by decide)]
      simp
    rw [hdrop, List.dropLast_concat]
  rw [hinner]
  simp only [List.filter_append, hquote hq, hquote hq', hkeep (hblank ha), hkeep (hblank hb),
    hkeep hbody, List.nil_append]
  rw [← List.append_assoc, Text.trim_around ha hb]

/-- What is found is a token, and what it refers to is captured. -/
theorem token_of_matchAt {hit : Hit} (h : urlToken.matchAt ⟨before, t⟩ = some hit) :
    Token (hit.group 2) hit.text ∧ ∃ rest, t = hit.text ++ rest := by
  obtain ⟨rest, htext, haccepts⟩ := matchAt_sound h
  obtain ⟨body, hkept, htoken⟩ := accepts_urlToken haccepts
  have hgroup : hit.group 2 = body := by
    rw [Hit.group, Hit.group?, hkept]
    rfl
  rw [hgroup]
  exact ⟨htoken, rest, htext⟩

/-- A token is found whatever follows it. -/
theorem Token.matchAt (h : Token body t) :
    ∃ hit, urlToken.matchAt ⟨before, t ++ rest⟩ = some hit ∧ hit.text = t
      ∧ Text.trim (hit.group 2) = Text.trim body := by
  have hmatches : urlToken.Matches before t rest := h.matches
  obtain ⟨hit, hmatch⟩ := matchAt_complete hmatches
  obtain ⟨htoken, rest', hsplit⟩ := token_of_matchAt hmatch
  obtain ⟨rfl, -⟩ := h.unique htoken hsplit
  exact ⟨hit, hmatch, rfl, by rw [htoken.trim_eq, h.trim_eq]⟩

theorem text_ne_nil {hit : Hit} (h : urlToken.matchAt ⟨before, t⟩ = some hit) : hit.text ≠ [] := by
  obtain ⟨front, htext, -⟩ := (token_of_matchAt h).1.exists_front
  rw [htext]
  simp

-- ================================================================ what leads where

/-- A relative target that refers to an image or a font by its last segment, up to a query
or a fragment. -/
structure Refers (url : Text) (kind : AssetKind) (name suffix : Text) : Prop where
  relative : url.head? ≠ some '/'
  noScheme : ':' ∉ url
  shape : ∃ front, url = front ++ (name ++ suffix) ∧ (front = [] ∨ ∃ s, front = s ++ ['/'])
    ∧ ∀ c ∈ front, startsSuffix c = false
  name_inside : ∀ c ∈ name, c ≠ '/' ∧ startsSuffix c = false
  suffix_start : ∀ c ∈ suffix.head?, startsSuffix c = true
  kind_eq : AssetKind.of? name = some kind
  moved : kind = .image ∨ kind = .font

/-- Where files of a kind are referred to after the export. -/
def target (kind : AssetKind) (name suffix : Text) : Text :=
  "/assets/" ++ kind.folderName ++ "/" ++ name ++ suffix

theorem target_eq (kind : AssetKind) (name suffix : Text) :
    target kind name suffix
      = '/' :: (("assets/".toList ++ (kind.folderName ++ ['/'])) ++ (name ++ suffix)) := by
  have hroot : "/assets/".toList = '/' :: "assets/".toList := by decide
  have hslash : "/".toList = ['/'] := by decide
  show "/assets/".toList ++ kind.folderName ++ "/".toList ++ name ++ suffix = _
  rw [hroot, hslash]
  simp

theorem of?_nil : AssetKind.of? [] = none := by decide

/-- The last segment of a target, up to a query or a fragment. -/
structure LastSegment (url name suffix : Text) : Prop where
  shape : ∃ front, url = front ++ (name ++ suffix) ∧ (front = [] ∨ ∃ s, front = s ++ ['/'])
    ∧ ∀ c ∈ front, startsSuffix c = false
  name_inside : ∀ c ∈ name, c ≠ '/' ∧ startsSuffix c = false
  suffix_start : ∀ c ∈ suffix.head?, startsSuffix c = true

theorem Refers.lastSegment {kind : AssetKind} {name suffix : Text} (h : Refers url kind name suffix) :
    LastSegment url name suffix := ⟨h.shape, h.name_inside, h.suffix_start⟩

/-- There is one last segment. -/
theorem LastSegment.unique {name name' suffix suffix' : Text} (h : LastSegment url name suffix)
    (h' : LastSegment url name' suffix') : name = name' ∧ suffix = suffix' := by
  obtain ⟨front, rfl, hfront, hpath⟩ := h.shape
  obtain ⟨front', heq, hfront', hpath'⟩ := h'.shape
  have hspan : ∀ {front name : Text}, (∀ c ∈ front, startsSuffix c = false) →
      (∀ c ∈ name, c ≠ '/' ∧ startsSuffix c = false) → ∀ c ∈ front ++ name, (!startsSuffix c) = true := by
    intro front name hfront hname c hc
    rcases List.mem_append.1 hc with hc | hc
    · simp [hfront c hc]
    · simp [(hname c hc).2]
  have hlast : ∀ {front : Text}, (front = [] ∨ ∃ s, front = s ++ ['/']) →
      ∀ c ∈ front.getLast?, decide (c ≠ '/') = false := by
    rintro front (rfl | ⟨s, rfl⟩) c hc
    · cases hc
    · rw [List.getLast?_concat] at hc
      cases hc
      rfl
  rw [← List.append_assoc, ← List.append_assoc] at heq
  obtain ⟨hpaths, hsuffixes⟩ := Text.append_inj_of_span heq (hspan hpath h.name_inside)
    (hspan hpath' h'.name_inside) (by simpa using h.suffix_start) (by simpa using h'.suffix_start)
  obtain ⟨-, hnames⟩ := Text.append_inj_of_span_right (P := fun c => decide (c ≠ '/')) hpaths
    (fun c hc => decide_eq_true (h.name_inside c hc).1) (fun c hc => decide_eq_true (h'.name_inside c hc).1)
    (hlast hfront) (hlast hfront')
  exact ⟨hnames, hsuffixes⟩

/-- It is found from the end. -/
theorem lastSegment_take (url : Text) :
    LastSegment url ((url.takeWhile (!startsSuffix ·)).reverse.takeWhile (· ≠ '/')).reverse
      (url.dropWhile (!startsSuffix ·)) := by
  refine ⟨⟨((url.takeWhile (!startsSuffix ·)).reverse.dropWhile (· ≠ '/')).reverse, ?_, ?_, ?_⟩, ?_, ?_⟩
  · rw [← List.append_assoc, ← List.reverse_append, List.takeWhile_append_dropWhile,
      List.reverse_reverse, List.takeWhile_append_dropWhile]
  · cases hdrop : (url.takeWhile (!startsSuffix ·)).reverse.dropWhile (· ≠ '/') with
    | nil => exact .inl rfl
    | cons c rest =>
        have hc := List.head?_dropWhile_not (fun c : Char => decide (c ≠ '/'))
          (url.takeWhile (!startsSuffix ·)).reverse
        rw [hdrop] at hc
        obtain rfl : c = '/' := by simpa using hc
        exact .inr ⟨rest.reverse, by simp⟩
  · intro c hc
    have hmem := List.mem_reverse.1
      ((List.dropWhile_sublist _).subset (List.mem_reverse.1 hc))
    simpa using List.all_eq_true.1 List.all_takeWhile c hmem
  · intro c hc
    have hback := List.mem_reverse.1 hc
    have hmem := List.mem_reverse.1 ((List.takeWhile_sublist _).subset hback)
    exact ⟨of_decide_eq_true (List.all_eq_true.1 List.all_takeWhile c hback),
      by simpa using List.all_eq_true.1 List.all_takeWhile c hmem⟩
  · intro c hc
    have hhead := List.head?_dropWhile_not (!startsSuffix ·) url
    rw [Option.mem_def.1 hc] at hhead
    simpa using hhead

theorem Refers.relocated? {kind : AssetKind} {name suffix : Text}
    (h : Refers url kind name suffix) : relocated? url = some (target kind name suffix) := by
  obtain ⟨hname, hsuffix⟩ := h.lastSegment.unique (lastSegment_take url)
  have hne : name ≠ [] := by
    rintro rfl
    have hkind := h.kind_eq
    rw [of?_nil] at hkind
    cases hkind
  have hguard : ¬ ((decide (url.head? = some '/') || decide (':' ∈ url)) = true) := by
    simp only [Bool.or_eq_true, decide_eq_true_eq, not_or]
    exact ⟨h.relative, h.noScheme⟩
  unfold Css.relocated?
  rw [if_neg hguard]
  dsimp only
  rw [← hname, ← hsuffix, if_neg hne, h.kind_eq]
  exact if_pos (by simpa using h.moved)

theorem refers_of_relocated? {led : Text} (h : relocated? url = some led) :
    ∃ kind name suffix, Refers url kind name suffix ∧ led = target kind name suffix := by
  unfold relocated? at h
  split at h
  next => cases h
  next hguard =>
    simp only [Bool.or_eq_true, decide_eq_true_eq, not_or] at hguard
    dsimp only at h
    split at h
    next => cases h
    next =>
      obtain ⟨kind, hkind, h⟩ := Option.bind_eq_some_iff.1 h
      split at h
      next hmoved =>
        cases h
        have hsegment := lastSegment_take url
        exact ⟨kind, _, _, ⟨hguard.1, hguard.2, hsegment.shape, hsegment.name_inside,
          hsegment.suffix_start, hkind, by simpa using hmoved⟩, rfl⟩
      next => cases h

/-- A target that is no relative reference to an image or a font: an absolute one, one with a
scheme, or one whose last segment names neither. -/
inductive Foreign (url : Text) : Prop
  | absolute (h : url.head? = some '/')
  | scheme (h : ':' ∈ url)
  | other (name suffix : Text) (hsegment : LastSegment url name suffix)
      (h : ∀ kind, AssetKind.of? name = some kind → kind ≠ .image ∧ kind ≠ .font)

/-- A target is foreign or refers to a file that is led somewhere, and not both. -/
theorem foreign_iff : Foreign url ↔ ∀ kind name suffix, ¬ Refers url kind name suffix := by
  constructor
  · intro hforeign kind name suffix h
    cases hforeign with
    | absolute habsolute => exact h.relative habsolute
    | scheme hscheme => exact h.noScheme hscheme
    | other name' suffix' hsegment hkind =>
        obtain ⟨rfl, -⟩ := h.lastSegment.unique hsegment
        obtain ⟨himage, hfont⟩ := hkind kind h.kind_eq
        exact h.moved.elim himage hfont
  · intro hnot
    by_cases habsolute : url.head? = some '/'
    · exact .absolute habsolute
    · by_cases hscheme : ':' ∈ url
      · exact .scheme hscheme
      · have hsegment := lastSegment_take url
        refine .other _ _ hsegment fun kind hkind => not_or.1 fun hmoved => ?_
        exact hnot kind _ _ ⟨habsolute, hscheme, hsegment.shape, hsegment.name_inside,
          hsegment.suffix_start, hkind, hmoved⟩

-- ================================================================== led tokens

/-- What becomes of a token. -/
def led (hit : Hit) : Text :=
  match relocated? (Text.trim (hit.group 2)) with
  | some target => "url(\"" ++ target ++ "\")"
  | none => hit.text

theorem rewrite_eq (sheet : Text) : rewrite sheet = urlToken.rewrite led sheet := rfl

theorem led_of_refers {hit : Hit} {kind : AssetKind} {name suffix : Text}
    (h : Refers (Text.trim (hit.group 2)) kind name suffix) :
    led hit = "url(\"" ++ target kind name suffix ++ "\")" := by
  rw [led, h.relocated?]

theorem led_of_not_refers {hit : Hit}
    (h : ∀ kind name suffix, ¬ Refers (Text.trim (hit.group 2)) kind name suffix) :
    led hit = hit.text := by
  cases hrelocated : relocated? (Text.trim (hit.group 2)) with
  | none => rw [led, hrelocated]
  | some led =>
      obtain ⟨kind, name, suffix, hrefers, -⟩ := refers_of_relocated? hrelocated
      exact absurd hrefers (h kind name suffix)

theorem mem_of_mem_trim {c : Char} (h : c ∈ Text.trim t) : c ∈ t := by
  obtain ⟨a, b, hsplit, -, -⟩ := Text.exists_trim t
  rw [hsplit]
  simp [h]

/-- A token that is led to a folder is a token again, with a target that starts with a
slash. -/
theorem led_token {hit : Hit} (h : Token (hit.group 2) hit.text) :
    led hit = hit.text ∨ ∃ x, led hit = "url(\"" ++ ('/' :: x) ++ "\")" ∧ Token ('/' :: x) (led hit) := by
  cases hrelocated : relocated? (Text.trim (hit.group 2)) with
  | none => exact .inl (by rw [led, hrelocated])
  | some led' =>
      obtain ⟨kind, name, suffix, hrefers, rfl⟩ := refers_of_relocated? hrelocated
      have hled := led_of_refers hrefers
      have hfolder : ∀ kind : AssetKind, ∀ c ∈ '/' :: ("assets/".toList ++ (kind.folderName ++ ['/'])),
          (!isQuote c && c ≠ ')') = true := by
        intro kind
        cases kind <;> decide
      obtain ⟨front, hurl, -, -⟩ := hrefers.shape
      rw [target_eq] at hled
      refine .inr ⟨_, hled, ?_, by simp, ?_⟩
      · rw [hled]
        exact ⟨[], ['"'], ['"'], [], by simp, by simp, by simp, .inr ⟨'"', rfl, rfl⟩,
          .inr ⟨'"', rfl, rfl⟩⟩
      · intro c hc
        rw [← List.cons_append] at hc
        rcases List.mem_append.1 hc with hc | hc
        · exact hfolder kind c hc
        · refine h.inside c (mem_of_mem_trim ?_)
          rw [hurl]
          exact List.mem_append_right _ hc

theorem rewritten_led (sheet : Text) : Rewritten urlToken led none sheet (rewrite sheet) := by
  rw [rewrite_eq]
  exact rewritten_rewrite (fun _ _ _ => text_ne_nil) led sheet

-- ======================================================================= pieces

/-- What a piece of a sheet is led to, said without the function that finds it out. -/
structure LedTo (piece : Piece) (out : Text) : Prop where
  refers : ∀ hit kind name suffix, piece = .hit hit →
    Refers (Text.trim (hit.group 2)) kind name suffix →
    out = "url(\"" ++ target kind name suffix ++ "\")"
  stays : (∀ hit kind name suffix, piece = .hit hit →
    ¬ Refers (Text.trim (hit.group 2)) kind name suffix) → out = piece.text

theorem ledTo_write (piece : Piece) : LedTo piece (piece.write led) := by
  cases piece with
  | plain c => exact ⟨by simp, fun _ => rfl⟩
  | hit hit =>
      refine ⟨?_, fun hnot => led_of_not_refers fun kind name suffix => hnot hit kind name suffix rfl⟩
      rintro _ kind name suffix ⟨rfl⟩ hrefers
      exact led_of_refers hrefers

/-- The new sheet is made of what its pieces are written as. -/
theorem rewrite_pieces {R : Piece → Text → Prop} {sheet : Text}
    (h : ∀ piece ∈ urlToken.pieces sheet, R piece (piece.write led)) :
    ∃ outs, List.Forall₂ R (urlToken.pieces sheet) outs ∧ rewrite sheet = outs.flatten := by
  refine ⟨(urlToken.pieces sheet).map (Piece.write led), ?_, ?_⟩
  · rw [List.forall₂_map_right_iff]
    exact List.forall₂_same.2 h
  · rw [rewrite_eq, Pattern.rewrite, List.flatMap]

/-- A sheet falls into its tokens and the characters between them, and each piece is led as
`LedTo` says. -/
theorem led_pieces (sheet : Text) :
    ((urlToken.pieces sheet).map Piece.text).flatten = sheet
      ∧ ∃ outs, List.Forall₂ LedTo (urlToken.pieces sheet) outs ∧ rewrite sheet = outs.flatten :=
  ⟨flatten_pieces (fun _ _ _ => text_ne_nil) sheet, rewrite_pieces fun piece _ => ledTo_write piece⟩

-- ================================================================ a second pass

/-- Behind its first letter a token holds no token with a target that starts with a
slash: the quotation mark in front of the target would stand inside what the token
refers to. -/
theorem Token.no_led {a z : Text} (h : Token body t) (ht : t = a ++ ("url(\"/".toList ++ z)) :
    a = [] := by
  refine Classical.byContradiction fun hne => ?_
  obtain ⟨⟨w, q, q', b, rfl, hw, hb, hq, hq'⟩, -, hinside⟩ := h
  -- off the front of the token
  obtain ⟨a', rfl⟩ : ∃ a', a = "url(".toList ++ a' := by
    obtain ⟨c, a', rfl⟩ := List.exists_cons_of_ne_nil hne
    obtain ⟨rfl, htail⟩ : c = 'u' ∧ "rl(".toList ++ (w ++ (q ++ (body ++ (q' ++ (b ++ [')'])))))
        = a' ++ 'u' :: ("rl(\"/".toList ++ z) := by
      obtain ⟨hc, htail⟩ := List.cons_eq_cons.1 ht
      exact ⟨hc.symm, htail⟩
    obtain ⟨y, rfl, -⟩ := Text.exists_append_of_notMem htail.symm (by decide)
    exact ⟨y, rfl⟩
  rw [List.append_assoc] at ht
  have hcut := List.append_cancel_left ht
  -- without white space, the quotation mark has something on both sides
  have hblank : ∀ {s : Text}, (∀ c ∈ s, Text.isBlank c) → s.filter (!Text.isBlank ·) = [] := by
    intro s hs
    exact List.filter_eq_nil_iff.2 fun c hc => by simp [hs c hc]
  have hquote : ∀ {q : Text}, MaybeQuote q → q.filter (!Text.isBlank ·) = q := by
    rintro q (rfl | ⟨c, hc, rfl⟩)
    · rfl
    · simp [Text.not_isBlank_of_isQuote hc]
  have hfilter := congrArg (List.filter (!Text.isBlank ·)) hcut
  have hlead : ("url(\"/".toList : Text).filter (!Text.isBlank ·) = ['u', 'r', 'l', '(', '"', '/'] := by
    decide
  have hbracket : [')'].filter (!Text.isBlank ·) = [')'] := by decide
  simp only [List.filter_append, hblank hw, hblank hb, hquote hq, hquote hq', hlead, hbracket,
    List.nil_append] at hfilter
  generalize a'.filter (!Text.isBlank ·) = front at hfilter
  generalize z.filter (!Text.isBlank ·) = back at hfilter
  have hmark : '"' ∉ body.filter (!Text.isBlank ·) := by
    intro hmem
    exact absurd (hinside _ (List.mem_of_mem_filter hmem)) (by decide)
  generalize body.filter (!Text.isBlank ·) = mid at hfilter hmark
  obtain ⟨y, hy⟩ : ∃ y, y ++ '"' :: ('/' :: back) = mid ++ (q' ++ [')']) := by
    rcases hq with rfl | ⟨c, -, rfl⟩
    · exact ⟨front ++ ['u', 'r', 'l', '('], by simpa using hfilter.symm⟩
    · cases front with
      | nil => exact ⟨['r', 'l', '('], by simpa using (List.cons_eq_cons.1 hfilter).2.symm⟩
      | cons d front =>
          exact ⟨front ++ ['u', 'r', 'l', '('], by simpa using (List.cons_eq_cons.1 hfilter).2.symm⟩
  obtain ⟨y, -, hq''⟩ := Text.exists_append_of_notMem hy hmark
  rcases hq' with rfl | ⟨c, -, rfl⟩
  · cases y with
    | nil => cases (List.cons_eq_cons.1 hq'').1
    | cons d y => simp at hq''
  · cases y with
    | nil => cases (List.cons_eq_cons.1 (List.cons_eq_cons.1 hq'').2).1
    | cons d y =>
        obtain ⟨-, htail⟩ := List.cons_eq_cons.1 hq''
        cases y with
        | nil => cases (List.cons_eq_cons.1 htail).1
        | cons e y => simp at htail

/-- What stands in the new sheet as the rest of a token stands in the old one: no token
that is led to a folder begins inside of it. -/
theorem rest_of_token {a b : Text} (hne : a ≠ []) (htoken : Token body (a ++ b))
    (h : Rewritten urlToken led before t (b ++ rest)) : ∃ rest', t = b ++ rest' := by
  generalize hnew : b ++ rest = new at h
  induction h generalizing a b with
  | nil =>
      obtain ⟨rfl, -⟩ := List.append_eq_nil_iff.1 hnew
      exact ⟨[], rfl⟩
  | plain before c t new hhere htail ih =>
      cases b with
      | nil => exact ⟨_, rfl⟩
      | cons d b =>
          obtain ⟨rfl, rfl⟩ := List.cons_eq_cons.1 hnew
          rw [List.append_cons] at htoken
          obtain ⟨rest', rfl⟩ := ih (by simp) htoken rfl
          exact ⟨rest', rfl⟩
  | hit before h t new hhit hhere htail ih =>
      obtain ⟨hled, -⟩ := token_of_matchAt hhere
      rcases led_token hled with hsame | ⟨x, hx, hslash⟩
      · rw [hsame] at hnew
        rcases List.append_eq_append_iff.1 hnew with ⟨y, hy, -⟩ | ⟨y, rfl, rfl⟩
        · exact ⟨y ++ t, by rw [hy]; simp⟩
        · rw [← List.append_assoc] at htoken
          obtain ⟨rest', rfl⟩ := ih (by simp [hne]) htoken rfl
          exact ⟨rest', by simp⟩
      · by_cases hb : b = []
        · exact ⟨h.text ++ t, by simp [hb]⟩
        · -- both texts end at the first closing bracket
          obtain ⟨front, hfront, hnot⟩ := htoken.exists_front
          obtain ⟨b', c, rfl⟩ := List.eq_nil_or_concat' b |>.resolve_left hb
          rw [← List.append_assoc] at hfront
          obtain ⟨rfl, hc⟩ := List.append_inj' hfront rfl
          obtain rfl : c = ')' := by simpa using hc
          obtain ⟨front', hfront', hnot'⟩ := hslash.exists_front
          rw [hfront'] at hnew
          have hcut : b' ++ ')' :: rest = front' ++ ')' :: new := by simpa using hnew
          obtain ⟨y, rfl, hy⟩ := Text.exists_append_of_notMem hcut hnot'
          cases y with
          | cons d y =>
              obtain ⟨rfl, -⟩ := List.cons_eq_cons.1 hy
              simp at hnot
          | nil =>
              rw [List.append_nil, ← hfront', hx] at htoken
              have hnil := htoken.no_led (a := a) (z := x ++ "\")".toList) (by simp)
              exact absurd hnil hne

theorem head?_trim {c : Char} (hc : Text.isBlank c = false) :
    (Text.trim (c :: t)).head? = some c := by
  obtain ⟨a, b, hsplit, ha, hb⟩ := Text.exists_trim (c :: t)
  have hblank : ∀ {s : Text}, (∀ d ∈ s, Text.isBlank d) → ∀ r, s ++ r = c :: t → s = [] := by
    intro s hs r htext
    cases s with
    | nil => rfl
    | cons d s =>
        obtain ⟨rfl, -⟩ := List.cons_eq_cons.1 htext
        have hd := hs d (List.mem_cons_self ..)
        rw [hc] at hd
        cases hd
  rw [List.append_assoc] at hsplit
  obtain rfl := hblank ha _ hsplit.symm
  cases htrim : Text.trim (c :: t) with
  | nil =>
      rw [htrim] at hsplit
      obtain rfl := hblank hb [] (by simpa using hsplit.symm)
      cases hsplit
  | cons d rest =>
      rw [htrim] at hsplit
      exact congrArg some (List.cons_eq_cons.1 hsplit).1.symm

/-- A pass over what a pass made changes nothing. -/
theorem rewritten_again (h : Rewritten urlToken led before t new) :
    Rewritten urlToken led before new new := by
  induction h with
  | nil before => exact .nil before
  | plain before c t new hhere htail ih =>
      refine .plain before c new new (matchAt_eq_none_iff_not_startsAt.2 ?_) ih
      rintro ⟨u, rest, htext, hmatches⟩
      obtain ⟨kept, haccepts⟩ := hmatches
      obtain ⟨body, -, htoken⟩ := accepts_urlToken haccepts
      obtain ⟨front, rfl, -⟩ := htoken.exists_front
      cases front with
      | nil =>
          obtain ⟨⟨a, q, q', b, hshape, -⟩, -, -⟩ := htoken
          cases hshape
      | cons d front =>
          obtain ⟨rfl, rfl⟩ : c = d ∧ new = front ++ [')'] ++ rest := List.cons_eq_cons.1 htext
          obtain ⟨rest', rfl⟩ := rest_of_token (a := [c]) (by simp) htoken htail
          exact matchAt_eq_none_iff_not_startsAt.1 hhere
            ⟨_, rest', rfl, htoken.matches⟩
  | hit before h t new hne hhere htail ih =>
      obtain ⟨htoken, -⟩ := token_of_matchAt hhere
      have hlast : ∀ {body s : Text} {before : Option Char}, Token body s →
          lastAfter before s = some ')' := by
        intro body s before hs
        obtain ⟨front, rfl, -⟩ := hs.exists_front
        exact lastAfter_concat before front ')'
      rw [hlast htoken] at ih
      obtain ⟨body, hled, hstays⟩ : ∃ body, Token body (led h)
          ∧ (led h = h.text ∧ Text.trim body = Text.trim (h.group 2)
            ∨ (Text.trim body).head? = some '/') := by
        rcases led_token htoken with hsame | ⟨x, -, hslash⟩
        · exact ⟨_, by rwa [hsame], .inl ⟨hsame, rfl⟩⟩
        · exact ⟨_, hslash, .inr (head?_trim (by decide))⟩
      obtain ⟨hit, hmatch, htext, htrim⟩ : ∃ hit, urlToken.matchAt ⟨before, led h ++ new⟩ = some hit
          ∧ hit.text = led h ∧ Text.trim (hit.group 2) = Text.trim body := hled.matchAt
      have hagain : led hit = hit.text := by
        rcases hstays with ⟨hsame, htrim'⟩ | hslash
        · cases hrelocated : relocated? (Text.trim (hit.group 2)) with
          | none => rw [led, hrelocated]
          | some target =>
              rw [htext, led, led, ← htrim', ← htrim, hrelocated]
        · refine led_of_not_refers fun kind name suffix hrefers => hrefers.relative ?_
          rw [htrim, hslash]
      have hnew : Rewritten urlToken led before (hit.text ++ new) (led hit ++ new) := by
        rw [← htext] at hmatch
        have hnil : hit.text ≠ [] := text_ne_nil hmatch
        rw [← hlast hled, ← htext] at ih
        exact .hit before hit new new hnil hmatch ih
      rwa [hagain, htext] at hnew

/-- A second pass changes nothing. -/
theorem rewrite_twice (sheet : Text) : rewrite (rewrite sheet) = rewrite sheet := by
  have hagain := (rewritten_again (rewritten_led sheet)).rewrite_eq
  rwa [← rewrite_eq] at hagain

-- ================================================================ foreign tokens

/-- What becomes of a piece of a sheet: a character between tokens stays, and so does a token
with a foreign target. -/
structure Stays (piece : Piece) (out : Text) : Prop where
  plain : ∀ c, piece = .plain c → out = [c]
  token : ∀ hit, piece = .hit hit → Token (hit.group 2) hit.text
  foreign : ∀ hit, piece = .hit hit → Foreign (Text.trim (hit.group 2)) → out = hit.text

theorem stays_of_mem {sheet : Text} {piece : Piece} (hmem : piece ∈ urlToken.pieces sheet) :
    Stays piece (piece.write led) := by
  constructor
  · rintro c rfl
    rfl
  · rintro hit rfl
    rw [pieces_eq] at hmem
    obtain ⟨_, _, -, hmatch⟩ := exists_of_mem_piecesFrom hmem
    exact (token_of_matchAt hmatch).1
  · rintro hit rfl hforeign
    exact led_of_not_refers (foreign_iff.1 hforeign)

/-- A second pass over a sheet changes nothing, and the first one keeps what is foreign: the
sheet falls into tokens and the characters between them, and in the order in which they come
those characters and the tokens with a foreign target stand in the new sheet as they are. -/
theorem rewrite_keeps_foreign (sheet : Text) : rewrite (rewrite sheet) = rewrite sheet
    ∧ ((urlToken.pieces sheet).map Piece.text).flatten = sheet
    ∧ ∃ outs, List.Forall₂ Stays (urlToken.pieces sheet) outs ∧ rewrite sheet = outs.flatten := by
  refine ⟨rewrite_twice sheet, flatten_pieces (fun _ _ _ => text_ne_nil) sheet, rewrite_pieces ?_⟩
  exact fun piece hmem => stays_of_mem hmem

end SiteScaffold.Export.Css
