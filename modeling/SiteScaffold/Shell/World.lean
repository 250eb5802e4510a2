/-
What running programs share: the disk, and the handles that their channels lead
to. Channels that were copied from one another have one handle and so one place
in a file.

What is added to the end of a file is gathered before it is put on the disk, so that
many short writes cost no more than one; `settled` puts there what was gathered.
-/
import SiteScaffold.Disk.Access
import SiteScaffold.Shell.Raw

namespace SiteScaffold.Shell

/-- What an open file is open for. -/
inductive Access where
  | read
  | write
  | append
  | both
  deriving Repr, DecidableEq

/-- Where a channel leads: to a collector of what is written, the last chunk
first; to a supply of what is read; to a place in a file; or nowhere. -/
inductive Handle where
  | collector (chunks : List Raw)
  | supply (rest : Raw)
  | file (place : Key) (offset : Nat) (access : Access)
  | nothing

/-- What was added to the file at a place and is not yet on the disk, the last
chunk first, and how long the file is with it. -/
structure Addition where
  place : Key
  size : Nat
  chunks : List Raw

/-- What running programs share. `signals` are signals on their way to a process;
`budget` bounds how many commands are still run. -/
structure World where
  disk : Disk
  handles : List (Nat × Handle)
  nextHandle : Nat
  pending : Option Addition
  nextProcess : Nat
  signals : List (Nat × Nat)
  budget : Nat

namespace World

/-- The place in the system that takes everything and has nothing. -/
def nullPlace : Key := ["dev", "null"]

/-- A world with nothing but a disk. -/
def ofDisk (disk : Disk) (budget : Nat) : World :=
  ⟨disk, [], 0, none, 1, [], budget⟩

-- ========================================================== handles

def handle? (w : World) (n : Nat) : Option Handle := w.handles.lookup n

/-- The world with another state of a handle. -/
def setHandle (w : World) (n : Nat) (handle : Handle) : World :=
  { w with handles := w.handles.map fun (m, old) => (m, if m = n then handle else old) }

/-- A new handle, with its number. -/
def addHandle (w : World) (handle : Handle) : Nat × World :=
  (w.nextHandle,
    { w with handles := (w.nextHandle, handle) :: w.handles, nextHandle := w.nextHandle + 1 })

/-- The bytes of a file after some were put at a place in it; what lies between
its end and the place is filled with zeros. -/
def overwritten (old : Raw) (offset : Nat) (new : Raw) : Raw :=
  let front := old.take offset
  front ++ List.replicate (offset - front.length) '\x00' ++ new ++ old.drop (offset + new.length)

/-- The bytes of the file at a place. -/
def bytesAt (disk : Disk) (place : Key) : Raw :=
  match disk.lookup place with
  | some (.file _ content) => Raw.ofBytes content.bytes
  | _ => []

/-- The disk with other bytes in the file at a place, if it is still there. -/
def withBytes (disk : Disk) (place : Key) (bytes : Raw) : Disk :=
  match disk.lookup place with
  | some (.file executable _) => disk.insert place (.file executable (.ofBytes bytes.bytes))
  | _ => disk

/-- The world with everything on the disk that was written. -/
def settled (w : World) : World :=
  match w.pending with
  | none => w
  | some added =>
    let bytes := bytesAt w.disk added.place ++ added.chunks.reverse.flatten
    { w with pending := none, disk := withBytes w.disk added.place bytes }

/-- The world without a handle. -/
def dropHandle (w : World) (n : Nat) : World :=
  { w with handles := w.handles.filter (·.1 ≠ n) }

/-- The world with what is added to the file at a place, which may be nothing so
far. -/
def adding (w : World) (place : Key) : World × Addition :=
  match w.pending with
  | some added =>
    if added.place = place then (w, added)
    else
      let w := w.settled
      (w, ⟨place, (bytesAt w.disk place).length, []⟩)
  | none => (w, ⟨place, (bytesAt w.disk place).length, []⟩)

/-- The world with bytes put at an offset of the file at a place, or at its end. -/
def putBytes (w : World) (place : Key) (offset : Option Nat) (bytes : Raw) : World × Nat :=
  let (w, added) := w.adding place
  let offset := offset.getD added.size
  let stop := offset + bytes.length
  if offset = added.size then
    ({ w with pending := some { added with size := stop, chunks := bytes :: added.chunks } }, stop)
  else
    let w := w.settled
    let old := bytesAt w.disk place
    ({ w with disk := withBytes w.disk place (overwritten old offset bytes) }, stop)

-- ============================================== reading and writing

/-- Writes to a handle; fails if the handle takes nothing. -/
def write? (w : World) (n : Nat) (bytes : Raw) : Option World :=
  match w.handle? n with
  | some (.collector chunks) => some (w.setHandle n (.collector (bytes :: chunks)))
  | some .nothing => some w
  | some (.file _ _ .read) | some (.supply _) | none => none
  | some (.file place offset access) =>
    let (w, stop) := w.putBytes place (if access = .append then none else some offset) bytes
    some (w.setHandle n (.file place stop access))

/-- What was written to a collector. -/
def collected (w : World) (n : Nat) : Raw :=
  match w.handle? n with
  | some (.collector chunks) => chunks.reverse.flatten
  | _ => []

/-- What is there to be read from a handle; fails if it cannot be read. -/
def ahead? (w : World) (n : Nat) : Option Raw :=
  match w.handle? n with
  | some (.supply rest) => some rest
  | some (.file _ _ .write) | some (.file _ _ .append) | none => none
  | some (.file place offset _) => some ((bytesAt w.settled.disk place).drop offset)
  | some .nothing | some (.collector _) => some []

/-- The world after bytes were read from a handle. -/
def passed (w : World) (n count : Nat) : World :=
  match w.handle? n with
  | some (.supply rest) => w.setHandle n (.supply (rest.drop count))
  | some (.file place offset access) =>
    let w := w.settled
    w.setHandle n (.file place (offset + count) access)
  | _ => w

end World

end SiteScaffold.Shell
