/-
A disk: a finite map from places to entries, kept in the order in which a walk
visits them. A place is the list of names that leads to it from the root; the
order is lexicographic, so a folder comes right before everything below it and
siblings come in the order of their names.

The order is part of the type. `insert` and `erase` keep it, and everything
that is read off the entries in sequence inherits it.
-/
import SiteScaffold.Zip

namespace SiteScaffold

/-- What a file holds. Bytes that spell a text are kept as that text, and an
archive is kept as its entries. -/
inductive Content where
  | text (t : Text)
  | binary (bytes : Bytes)
  | archive (entries : List (Text × Bytes))
  deriving Repr, DecidableEq

/-- The content with the given bytes. -/
def Content.ofBytes (bytes : Bytes) : Content :=
  match Utf8.decode? bytes with
  | some t => .text t
  | none => .binary bytes

/-- The bytes of a content. -/
def Content.bytes : Content → Bytes
  | text t => Utf8.encode t
  | binary bytes => bytes
  | archive entries => Zip.encode entries

/-- What stands at a place. A link leads to the path it holds. -/
inductive Entry where
  | folder
  | file (executable : Bool) (content : Content)
  | link (target : Text)
  deriving Repr, DecidableEq

namespace Entry

/-- Whether the entry itself, not what a link leads to, is a file. -/
def isFile : Entry → Bool
  | file _ _ => true
  | _ => false

/-- Whether the entry itself, not what a link leads to, is a folder. -/
def isFolder : Entry → Bool
  | folder => true
  | _ => false

end Entry

/-- The names that lead from the root to a place. -/
abbrev Key := List Text

namespace Key

/-- The order of a walk: a place comes before all places below it, and
siblings are ordered by name. -/
def less : Key → Key → Bool
  | _, [] => false
  | [], _ :: _ => true
  | a :: as, b :: bs => Text.less a b || (a = b && less as bs)

/-- Whether `k` lies at or below `top`. -/
def within (top k : Key) : Bool := top.isPrefixOf k

end Key

-- ================================================ laws of the order

namespace Text

theorem less_trans {a b c : Text} (hab : less a b) (hbc : less b c) : less a c := by
  induction a generalizing b c with
  | nil =>
    cases c with
    | nil => cases b <;> simp [less] at hbc
    | cons => rfl
  | cons x a ih =>
    match b, c with
    | [], _ => simp [less] at hab
    | _ :: _, [] => simp [less] at hbc
    | y :: b, z :: c =>
      simp only [less, Bool.or_eq_true, Bool.and_eq_true, decide_eq_true_eq] at hab hbc ⊢
      rcases hab with hab | ⟨rfl, hab⟩
      · rcases hbc with hbc | ⟨rfl, -⟩
        · exact .inl (Char.lt_trans hab hbc)
        · exact .inl hab
      · rcases hbc with hbc | ⟨rfl, hbc⟩
        · exact .inl hbc
        · exact .inr ⟨rfl, ih hab hbc⟩

theorem less_of_not_less {a b : Text} (hne : a ≠ b) (hnot : less a b = false) :
    less b a := by
  induction a generalizing b with
  | nil => cases b <;> simp_all [less]
  | cons x a ih =>
    cases b with
    | nil => rfl
    | cons y b =>
      simp only [less, Bool.or_eq_true, Bool.and_eq_true, decide_eq_true_eq,
        Bool.or_eq_false_iff, decide_eq_false_iff_not, Bool.and_eq_false_imp] at hnot ⊢
      obtain ⟨hxy, htail⟩ := hnot
      by_cases heq : x = y
      · subst heq
        exact .inr ⟨rfl, ih (fun h => hne (h ▸ rfl)) (by simpa using htail)⟩
      · exact .inl (Std.lt_of_le_of_ne (Char.not_lt.mp hxy) (Ne.symm heq))

end Text

namespace Key

theorem less_trans {a b c : Key} (hab : less a b) (hbc : less b c) : less a c := by
  induction a generalizing b c with
  | nil =>
    cases c with
    | nil => cases b <;> simp [less] at hbc
    | cons => rfl
  | cons x a ih =>
    match b, c with
    | [], _ => simp [less] at hab
    | _ :: _, [] => simp [less] at hbc
    | y :: b, z :: c =>
      simp only [less, Bool.or_eq_true, Bool.and_eq_true, decide_eq_true_eq] at hab hbc ⊢
      rcases hab with hab | ⟨rfl, hab⟩
      · rcases hbc with hbc | ⟨rfl, -⟩
        · exact .inl (Text.less_trans hab hbc)
        · exact .inl hab
      · rcases hbc with hbc | ⟨rfl, hbc⟩
        · exact .inl hbc
        · exact .inr ⟨rfl, ih hab hbc⟩

theorem less_of_not_less {a b : Key} (hne : a ≠ b) (hnot : less a b = false) :
    less b a := by
  induction a generalizing b with
  | nil => cases b <;> simp_all [less]
  | cons x a ih =>
    cases b with
    | nil => rfl
    | cons y b =>
      simp only [less, Bool.or_eq_true, Bool.and_eq_true, decide_eq_true_eq,
        Bool.or_eq_false_iff, Bool.and_eq_false_imp] at hnot ⊢
      obtain ⟨hxy, htail⟩ := hnot
      by_cases heq : x = y
      · subst heq
        exact .inr ⟨rfl, ih (fun h => hne (h ▸ rfl)) (by simpa using htail)⟩
      · exact .inl (Text.less_of_not_less heq hxy)

end Key

-- ========================================================= the disk

/-- Entries by place, in the order of a walk. The root is a folder and is not
listed. -/
structure Disk where
  entries : List (Key × Entry)
  sorted : entries.Pairwise fun a b => Key.less a.1 b.1

namespace Disk

instance : DecidableEq Disk := fun a b =>
  if h : a.entries = b.entries then
    isTrue (by cases a; cases b; simp_all)
  else isFalse fun hab => h (hab ▸ rfl)

/-- The disk with nothing on it. -/
def blank : Disk := ⟨[], .nil⟩

/-- The entry at a place. -/
def lookup (disk : Disk) (k : Key) : Option Entry :=
  if k = [] then some .folder else disk.entries.lookup k

/-- Entries in order with one more, which takes the place of what stood
there. -/
def insertSorted (k : Key) (e : Entry) : List (Key × Entry) → List (Key × Entry)
  | [] => [(k, e)]
  | (k', e') :: rest =>
    if k = k' then (k, e) :: rest
    else if Key.less k k' then (k, e) :: (k', e') :: rest
    else (k', e') :: insertSorted k e rest

theorem mem_insertSorted {k : Key} {e : Entry} {l : List (Key × Entry)}
    {x : Key × Entry} (hx : x ∈ insertSorted k e l) : x = (k, e) ∨ x ∈ l := by
  induction l with
  | nil => simpa [insertSorted] using hx
  | cons head rest ih =>
    obtain ⟨k', e'⟩ := head
    simp only [insertSorted] at hx
    split at hx
    · grind
    · split at hx
      · grind
      · grind

theorem insertSorted_sorted {k : Key} {e : Entry} {l : List (Key × Entry)}
    (h : l.Pairwise fun a b => Key.less a.1 b.1) :
    (insertSorted k e l).Pairwise fun a b => Key.less a.1 b.1 := by
  induction l with
  | nil => simp [insertSorted]
  | cons head rest ih =>
    obtain ⟨k', e'⟩ := head
    obtain ⟨hhead, hrest⟩ := List.pairwise_cons.1 h
    simp only [insertSorted]
    split
    · next heq => exact List.pairwise_cons.2 ⟨fun x hx => heq ▸ hhead x hx, hrest⟩
    · next hne =>
      split
      · next hlt =>
        refine List.pairwise_cons.2 ⟨fun x hx => ?_, h⟩
        rcases List.mem_cons.1 hx with rfl | hx
        · exact hlt
        · exact Key.less_trans hlt (hhead x hx)
      · next hnot =>
        refine List.pairwise_cons.2 ⟨fun x hx => ?_, ih hrest⟩
        rcases mem_insertSorted hx with rfl | hx
        · exact Key.less_of_not_less hne (by simpa using hnot)
        · exact hhead x hx

/-- The disk with an entry at a place, whatever stood there. -/
def insert (disk : Disk) (k : Key) (e : Entry) : Disk :=
  ⟨insertSorted k e disk.entries, insertSorted_sorted disk.sorted⟩

/-- The disk with the entries whose places pass a test. -/
def filter (disk : Disk) (keep : Key → Bool) : Disk :=
  ⟨disk.entries.filter (keep ·.1), disk.sorted.filter _⟩

/-- The disk without what stood at a place and below it. -/
def erase (disk : Disk) (k : Key) : Disk := disk.filter fun k' => !k.within k'

/-- The disk without what stood below a place. -/
def clear (disk : Disk) (k : Key) : Disk :=
  disk.filter fun k' => !(k.within k' && k' ≠ k)

/-- The entries below a place, each with the names that lead to it from
there, in the order of a walk. -/
def below (disk : Disk) (k : Key) : List (Key × Entry) :=
  disk.entries.filterMap fun (k', e) =>
    if k.within k' && k' ≠ k then some (k'.drop k.length, e) else none

/-- The names and entries right below a place, by name. -/
def children (disk : Disk) (k : Key) : List (Text × Entry) :=
  (disk.below k).filterMap fun
    | ([name], e) => some (name, e)
    | _ => none

/-- The disk with what stood at `source` and below moved to `target`. -/
def relocate (disk : Disk) (source target : Key) (e : Entry) : Disk :=
  (disk.below source).foldl (fun disk (k, e) => disk.insert (target ++ k) e)
    (((disk.erase source).erase target).insert target e)

end Disk

end SiteScaffold
