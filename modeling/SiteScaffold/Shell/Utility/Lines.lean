/-
Utilities that read files or what is piped to them, line by line or byte by byte,
and write it out changed, cut, sorted or counted.
-/
import SiteScaffold.Shell.Builtin.Values
import SiteScaffold.Shell.Glob
import SiteScaffold.Shell.Utility.Entries

namespace SiteScaffold.Shell

namespace Utility

/-- The bytes of a file, or of what is piped in if the name is a dash. -/
def content (name : Raw) : Task (Except Raw Raw) := do
  if name = "-" then
    match ← Task.readAll 0 with
    | some bytes => return .ok bytes
    | none => return .error "Bad file descriptor"
  match ← find true name with
  | .ok (_, .folder) => return .error "Is a directory"
  | .ok (place, _) => return .ok (World.bytesAt (← Task.disk) place)
  | .error fault => return .error (wording fault)

/-- The lines of a text, each without its end. -/
def linesOf (t : Raw) : List Raw := (Text.wholeLines t).map fun line =>
  if line.getLast? = some '\n' then line.dropLast else line

/-- Reads each file in turn, or what is piped in, and carries out a step with it.
Complaints say what was to be done with the file. -/
def withContents (program : Raw) (doing : Raw → Raw) (operands : List Raw)
    (step : Raw → Raw → Task Unit) : Task Nat := do
  let names : List Raw := if operands.isEmpty then ["-"] else operands
  forEach names fun name => do
    match ← content name with
    | .ok bytes =>
      step name bytes
      return 0
    | .error reason =>
      complain program (doing name ++ ": " ++ reason)
      return 1

/-- All that the files hold, one after the other. -/
def gathered (program : Raw) (doing : Raw → Raw) (operands : List Raw) : Task (Nat × Raw) := do
  let names : List Raw := if operands.isEmpty then ["-"] else operands
  let (status, chunks) ← names.foldlM (fun (status, chunks) name => do
    match ← content name with
    | .ok bytes => return (status, bytes :: chunks)
    | .error reason =>
      complain program (doing name ++ ": " ++ reason)
      return (1, chunks)) (0, [])
  let chunks : List Raw := chunks
  return (status, chunks.reverse.flatten)

-- =============================================================== cat

/-- A byte as it is shown with marks. -/
def shownByte (tabs : Bool) (c : Char) : Raw :=
  let low := fun (n : Nat) =>
    if n < 32 then ['^', Char.ofNat (n + 64)] else if n = 127 then ['^', '?'] else [Char.ofNat n]
  if c = '\t' then (if tabs then ['^', 'I'] else [c])
  else if c.toNat < 128 then low c.toNat
  else ['M', '-'] ++ low (c.toNat - 128)

/-- Writes lines with numbers and marks; answers the number of the last line and
whether it was empty. -/
def markedLines (g : Given) (start : Nat × Bool × Bool) (lines : List Raw) :
    Raw × (Nat × Bool × Bool) :=
  let (chunks, state) := lines.foldl (fun (done, n, wasEmpty, fresh) line =>
    let ended := line.getLast? = some '\n'
    let body := if ended then line.dropLast else line
    if g.has 's' && body = [] && ended && wasEmpty && fresh then (done, n, true, fresh)
    else
      let counts := fresh && (if g.has 'b' then body ≠ [] else g.has 'n')
      let number : Raw := if counts then
          let digits := Text.ofNat (n + 1)
          List.replicate (6 - digits.length) ' ' ++ digits ++ ['\t'] else []
      let all := g.has 'A' || g.has 'e' || g.has 't' || g.has 'v'
      let tabs := g.has 'A' || g.has 't' || g.has 'T'
      let shown := body.flatMap fun c =>
        if all then shownByte tabs c else if c = '\t' && tabs then ['^', 'I'] else [c]
      let ends := g.has 'A' || g.has 'e' || g.has 'E'
      let tail : Raw := if ended then (if ends then ['$', '\n'] else ['\n']) else []
      ((number ++ shown ++ tail) :: done, if counts then n + 1 else n, body = [], ended))
    (([] : List Raw), start)
  (chunks.reverse.flatten, state)

def cat : Utility :=
  withOptions [flag 'n' "number", flag 'b' "number-nonblank", flag 's' "squeeze-blank",
      flag 'E' "show-ends", flag 'T' "show-tabs", flag 'A' "show-all", flag 'v' "show-nonprinting",
      flag 'e' "", flag 't' "", flag 'u' ""] 1 fun program g => do
    let names : List Raw := if g.operands.isEmpty then ["-"] else g.operands
    let (status, _) ← names.foldlM (fun (status, state) name => do
      match ← content name with
      | .ok bytes =>
        if g.options.all (·.1 = 'u') then
          discard <| Task.write 1 bytes
          return (status, state)
        let (out, state) := markedLines g state (Text.wholeLines bytes)
        discard <| Task.write 1 out
        return (status, state)
      | .error reason =>
        complain program (shellQuoteIfNeeded name ++ ": " ++ reason)
        return (1, state)) (0, (0, false, true))
    return status

def tee : Utility :=
  withOptions [flag 'a' "append", flag 'i' "ignore-interrupts", flag 'p' ""] 1 fun program g => do
    let bytes := (← Task.readAll 0).getD []
    discard <| Task.write 1 bytes
    forEach g.operands fun name => do
      let disk ← Task.disk
      let path ← Task.path name
      let old := match disk.find true path with
        | .ok (place, _) => if g.has 'a' then World.bytesAt disk place else []
        | .error _ => []
      change program (shellQuoteIfNeeded name) (·.write path (.ofBytes (Raw.bytes (old ++ bytes))))

-- ===================================================== head and tail

/-- The number in a word, with the sign in front of it. -/
def countOf? (word : Raw) : Option (Option Char × Nat) :=
  let (sign, digits) : Option Char × Raw := match word with
    | '-' :: rest => (some '-', rest)
    | '+' :: rest => (some '+', rest)
    | _ => (none, word)
  if digits ≠ [] && digits.all Char.isDigit then some (sign, Arithmetic.value 10 digits) else none

/-- Words in which a first one such as `-5` asks for so many lines. -/
def withCount (args : List Raw) : List Raw :=
  match args with
  | ('-' :: digits) :: rest =>
    if digits ≠ [] && digits.all Char.isDigit then ['-', 'n'] :: digits :: rest else args
  | _ => args

/-- Shows a part of each file, with a title if there are several. -/
def showParts (program : Raw) (g : Given) (part : Raw → Raw) : Task Nat := do
  let titled := (g.operands.length > 1 && !g.has 'q') || g.has 'v'
  let (status, _) ← (if g.operands.isEmpty then [['-']] else g.operands).foldlM
    (fun (status, first) name => do
      match ← content name with
      | .ok bytes =>
        if titled then
          let title : Raw := if name = "-" then "standard input" else name
          discard <| Task.write 1
            ((if first then [] else ['\n']) ++ "==> " ++ title ++ " <==\n")
        discard <| Task.write 1 (part bytes)
        return (status, false)
      | .error reason =>
        if reason = "Is a directory" then
          complain program ("error reading " ++ shellQuote name ++ ": " ++ reason)
        else
          complain program ("cannot open " ++ shellQuote name ++ " for reading: " ++ reason)
        return (1, first)) (0, true)
  return status

/-- The pieces of a text that are counted: its lines or its bytes. -/
def unitsOf (bytes : Bool) (t : Raw) : List Raw :=
  if bytes then t.map fun c => [c] else Text.wholeLines t

def head : Utility := fun program args => do
  let body : Utility := withOptions [valued 'n' "lines", valued 'c' "bytes", flag 'q' "quiet",
      flag 'v' "verbose"] 1 fun program g => do
    let inBytes := (g.options.filter fun o => o.1 = 'n' || o.1 = 'c').getLast?.any (·.1 = 'c')
    let word := (g.value? (if inBytes then 'c' else 'n')).getD "10"
    match countOf? word with
    | none =>
      let kind : Raw := if inBytes then "bytes" else "lines"
      complain program ("invalid number of " ++ kind ++ ": " ++ quote word)
      return 1
    | some (sign, n) =>
      showParts program g fun t =>
        let units := unitsOf inBytes t
        (units.take (if sign = some '-' then units.length - n else n)).flatten
  body program (withCount args)

def tail : Utility := fun program args => do
  let body : Utility := withOptions [valued 'n' "lines", valued 'c' "bytes", flag 'q' "quiet",
      flag 'v' "verbose", flag 'f' ""] 1 fun program g => do
    let inBytes := (g.options.filter fun o => o.1 = 'n' || o.1 = 'c').getLast?.any (·.1 = 'c')
    let word := (g.value? (if inBytes then 'c' else 'n')).getD "10"
    match countOf? word with
    | none =>
      let kind : Raw := if inBytes then "bytes" else "lines"
      complain program ("invalid number of " ++ kind ++ ": " ++ quote word)
      return 1
    | some (sign, n) =>
      showParts program g fun t =>
        let units := unitsOf inBytes t
        (units.drop (if sign = some '+' then n - 1 else units.length - n)).flatten
  body program (withCount args)

-- ========================================================== counting

/-- The number of words in a text. -/
def wordCount (t : Raw) : Nat :=
  (t.foldl (fun (n, inside) c =>
    if Raw.isBlank c then (n, false) else (if inside then n else n + 1, true)) (0, false)).1

def wc : Utility :=
  withOptions [flag 'l' "lines", flag 'w' "words", flag 'c' "bytes", flag 'm' "chars",
      flag 'L' "max-line-length"] 1 fun program g => do
    let chosen := ['l', 'w', 'm', 'c', 'L'].filter g.has
    let chosen := if chosen.isEmpty then ['l', 'w', 'c'] else chosen
    let counts := fun (t : Raw) => chosen.map fun letter =>
      match letter with
      | 'l' => t.count '\n'
      | 'w' => wordCount t
      | 'L' => ((linesOf t).map List.length).foldl max 0
      | _ => t.length
    let names := g.operands
    let (status, rows) ← (if names.isEmpty then [['-']] else names).foldlM
      (fun (status, rows) name => do
        match ← content name with
        | .ok bytes => return (status, (name, counts bytes) :: rows)
        | .error reason =>
          complain program (shellQuoteIfNeeded name ++ ": " ++ reason)
          if reason = "Is a directory" then return (1, (name, counts []) :: rows)
          return (1, rows)) (0, [])
    let rows : List (Raw × List Nat) := rows.reverse
    let sums := rows.foldl (fun sums (_, row) => List.zipWith (· + ·) sums row)
      (chosen.map fun _ => 0)
    let all := if names.length > 1 then rows ++ [("total".toList, sums)] else rows
    let disk ← Task.disk
    let p ← Task.own
    let sizes := names.map fun name =>
      match disk.find true (Path.join p.folder (Raw.text name)) with
      | .ok (place, .file _ _) => (World.bytesAt disk place).length
      | _ => 0
    let isRegular := names.all fun name =>
      match disk.find true (Path.join p.folder (Raw.text name)) with
      | .ok (_, .file _ _) => true
      | .ok _ => false
      | .error _ => true
    let width :=
      if chosen.length = 1 && names.length < 2 then 1
      else if names.isEmpty || !isRegular then 7
      else (Text.ofNat (sizes.foldl (· + ·) 0)).length
    all.forM fun (name, row) => do
      let cells := row.map fun n =>
        let digits := Text.ofNat n
        List.replicate (width - digits.length) ' ' ++ digits
      let label := if names.isEmpty then [] else ' ' :: shellQuoteIfNeeded name
      Task.sayLine (Text.join " " cells ++ label)
    return status

-- =========================================================== sorting

/-- The number that a line starts with, as digits before and after its point. -/
def numberKey (line : Raw) : Int :=
  let (sign, t) : Int × Raw := match line.dropWhile fun c => c = ' ' || c = '\t' with
    | '-' :: rest => (-1, rest)
    | rest => (1, rest)
  let whole := t.takeWhile Char.isDigit
  let part := match t.drop whole.length with
    | '.' :: rest => (rest.takeWhile Char.isDigit).take 18
    | _ => []
  sign * (Arithmetic.value 10 whole * Nat.pow 10 18
    + Arithmetic.value 10 part * Nat.pow 10 (18 - part.length))

/-- The part of a line that a key such as `2,3` asks for. -/
def keyOf (separator : Option Char) (key line : Raw) : Raw :=
  let (first, last) := Raw.cutAt ',' key
  let start := Arithmetic.value 10 (first.takeWhile Char.isDigit)
  match separator with
  | some c =>
    let fields := Text.split c line
    let fields := match last with
      | some last => fields.take (Arithmetic.value 10 (last.takeWhile Char.isDigit))
      | none => fields
    Text.join [c] (fields.drop (start - 1))
  | none =>
    let cut := fun (n : Nat) (t : Raw) => (List.range n).foldl (fun (t : Raw) _ =>
      (t.dropWhile fun c => c = ' ' || c = '\t').dropWhile fun c => c ≠ ' ' && c ≠ '\t') t
    let front := cut (start - 1) line
    match last with
    | some last =>
      let after := cut (Arithmetic.value 10 (last.takeWhile Char.isDigit)) line
      front.take (front.length - after.length)
    | none => front

def sort : Utility :=
  withOptions [flag 'r' "reverse", flag 'n' "numeric-sort", flag 'u' "unique",
      flag 'f' "ignore-case", flag 'b' "", flag 's' "stable", valued 'k' "key",
      valued 't' "field-separator", valued 'o' "output", flag 'c' "check", flag 'd' ""] 2
    fun program g => do
      let (status, bytes) ← gathered program
        (fun name => "cannot read: " ++ shellQuoteIfNeeded name) g.operands
      if status ≠ 0 then return 2
      let lines := linesOf bytes
      let separator := (g.value? 't').bind List.head?
      let keys := (g.options.filter (·.1 = 'k')).map (·.2)
      let lower := fun (t : Raw) => if g.has 'f' then t.map Char.toUpper else t
      let compare := fun (numeric reversed : Bool) (a b : Raw) =>
        let order : Ordering :=
          if numeric then Ord.compare (numberKey a) (numberKey b)
          else if Text.less (lower a) (lower b) then .lt
          else if Text.less (lower b) (lower a) then .gt else .eq
        if reversed then order.swap else order
      let byKeys : Raw → Raw → Ordering := fun a b =>
        if keys.isEmpty then compare (g.has 'n') (g.has 'r') a b
        else keys.foldl (fun order key =>
          if order ≠ .eq then order
          else
            let own := key.any (·.isAlpha)
            compare (if own then key.contains 'n' else g.has 'n')
              (if own then key.contains 'r' else g.has 'r') (keyOf separator key a)
              (keyOf separator key b)) .eq
      let whole : Raw → Raw → Ordering := fun a b =>
        match byKeys a b with
        | .eq =>
          if g.has 'u' || g.has 's' then .eq
          else if Text.less a b then (if g.has 'r' then .gt else .lt)
          else if Text.less b a then (if g.has 'r' then .lt else .gt) else .eq
        | order => order
      let sorted := lines.mergeSort fun a b => whole a b ≠ .gt
      let shown := if g.has 'u' then
          (sorted.foldl (fun (done : List Raw) line =>
            match done with
            | last :: _ => if byKeys last line = .eq then done else line :: done
            | [] => [line]) []).reverse
        else sorted
      let out := Text.unlines shown
      match g.value? 'o' with
      | some name =>
        let path ← Task.path name
        change program ("open failed: " ++ shellQuoteIfNeeded name) (·.write path (.ofBytes (Raw.bytes out)))
      | none =>
        Task.say out
        return 0

def uniq : Utility :=
  withOptions [flag 'c' "count", flag 'd' "repeated", flag 'u' "unique", flag 'i' "ignore-case"] 1
    fun program g => do
      let (status, bytes) ← gathered program shellQuoteIfNeeded (g.operands.take 1)
      if status ≠ 0 then return 1
      let same := fun (a b : Raw) =>
        if g.has 'i' then a.map Char.toLower = b.map Char.toLower else a = b
      let runs := (linesOf bytes).foldl (fun (runs : List (Raw × Nat)) line =>
        match runs with
        | (last, n) :: more => if same last line then (last, n + 1) :: more else (line, 1) :: runs
        | [] => [(line, 1)]) []
      runs.reverse.forM fun (line, n) => do
        if (g.has 'd' && n = 1) || (g.has 'u' && n > 1) then return
        let digits := Text.ofNat n
        let count := if g.has 'c' then List.replicate (7 - digits.length) ' ' ++ digits ++ [' '] else []
        Task.sayLine (count ++ line)
      return 0

-- =========================================================== cutting

/-- The ranges that a list such as `1,3-5` names. -/
def ranges? (list : Raw) : Option (List (Nat × Option Nat)) :=
  (Text.split ',' list).mapM fun piece =>
    let (first, last) := Raw.cutAt '-' piece
    let number := fun (t : Raw) =>
      if t ≠ [] && t.all Char.isDigit then some (Arithmetic.value 10 t) else none
    match first, last with
    | [], some [] => none
    | first, none => (number first).map fun n => (n, some n)
    | [], some last => (number last).map fun n => (1, some n)
    | first, some [] => (number first).map fun n => (n, none)
    | first, some last => do return (← number first, some (← number last))

/-- The pieces at the numbers that ranges name. -/
def chosen {α : Type} (ranges : List (Nat × Option Nat)) (inverted : Bool) (pieces : List α) :
    List α :=
  (pieces.zipIdx 1).filterMap fun (piece, n) =>
    let inside := ranges.any fun (first, last) => first ≤ n && last.all (n ≤ ·)
    if inside != inverted then some piece else none

def cut : Utility :=
  withOptions [valued 'f' "fields", valued 'c' "characters", valued 'b' "bytes",
      valued 'd' "delimiter", flag 's' "only-delimited", flag 'v' "complement", flag 'n' "",
      valued 'o' "output-delimiter"] 1 fun program g => do
    let list := (g.value? 'f').orElse fun _ => (g.value? 'c').orElse fun _ => g.value? 'b'
    match list with
    | none => misused program "you must specify a list of bytes, characters, or fields" 1
    | some list =>
      match ranges? list with
      | none => misused program ("invalid field value " ++ quote list) 1
      | some ranges =>
        let (status, bytes) ← gathered program shellQuoteIfNeeded g.operands
        let delimiter := ((g.value? 'd').bind List.head?).getD '\t'
        (linesOf bytes).forM fun line => do
          if (g.value? 'f').isSome then
            if !line.contains delimiter then
              if !g.has 's' then Task.sayLine line
            else
              let fields := chosen ranges (g.has 'v') (Text.split delimiter line)
              Task.sayLine (Text.join ((g.value? 'o').getD [delimiter]) fields)
          else Task.sayLine (chosen ranges (g.has 'v') line)
        return status

-- ======================================================= translating

/-- The characters that a set of `tr` names, at most `fuel` of whose characters are
looked at. -/
def setFrom (fuel : Nat) (t : Raw) : Raw :=
  match fuel with
  | 0 => []
  | fuel + 1 =>
    let one : Raw → Option (Char × Raw) := fun
      | '\\' :: rest =>
        match rest with
        | [] => some ('\\', [])
        | d :: _ =>
          let (c, taken) := Printing.escape false rest
          some (if taken = 0 then (d, rest.drop 1) else (c, rest.drop taken))
      | c :: rest => some (c, rest)
      | [] => none
    match t with
    | '[' :: ':' :: rest =>
      match Text.cut? ":]" rest with
      | some (name, rest) =>
        match Glob.named.lookup name with
        | some test => (List.range 256).filterMap (fun n =>
            if test (Char.ofNat n) then some (Char.ofNat n) else none) ++ setFrom fuel rest
        | none => '[' :: setFrom fuel (t.drop 1)
      | none => '[' :: setFrom fuel (t.drop 1)
    | _ =>
      match one t with
      | none => []
      | some (c, '-' :: rest) =>
        match one rest with
        | none => c :: setFrom fuel ['-']
        | some (d, rest) =>
          (List.range (d.toNat + 1 - c.toNat)).map (fun i => Char.ofNat (c.toNat + i))
            ++ setFrom fuel rest
      | some (c, rest) => c :: setFrom fuel rest

/-- The characters that a set of `tr` names. -/
def charSet (t : Raw) : Raw := setFrom (t.length + 1) t

/-- A text without the repetitions of characters in a set. -/
def squeezed (set : Raw) (t : Raw) : Raw :=
  (t.foldl (fun (done : Raw) c =>
    if done.head? = some c && set.contains c then done else c :: done) []).reverse

def tr : Utility :=
  withLeadingOptions [flag 'd' "delete", flag 's' "squeeze-repeats", flag 'c' "complement",
      flag 'C' "", flag 't' "truncate-set1"] 1 fun program g => do
    let inverted := g.has 'c' || g.has 'C'
    match g.operands with
    | [] => misused program "missing operand" 1
    | first :: rest =>
      if rest.isEmpty && !g.has 'd' && !g.has 's' then
        discard <| Task.write 2
          (program ++ ": missing operand after " ++ quote first
            ++ "\nTwo strings must be given when translating.\n")
        return ← misused program [] 1
      let input := (← Task.readAll 0).getD []
      let named := charSet first
      let set := if inverted then
          ((List.range 256).map Char.ofNat).filter (!named.contains ·) else named
      let other := (rest.head?.map charSet).getD []
      let out :=
        if g.has 'd' then
          let kept := input.filter (!set.contains ·)
          if g.has 's' then squeezed other kept else kept
        else
          match other.getLast? with
          | none => squeezed set input
          | some last =>
            let padded := other ++ List.replicate (set.length - other.length) last
            let pairs := (set.zip padded).reverse
            let changed := input.map fun c => (pairs.lookup c).getD c
            if g.has 's' then squeezed other changed else changed
      discard <| Task.write 1 out
      return 0

end Utility

end SiteScaffold.Shell
