import AccessLog.Net.Percent
import AccessLog.Store.Memory
import AccessLog.Store.Table

/-! # Where a table is kept

The location of a table names a file, memory, or a file without a name that lasts as long as it is
open. Options after a question mark say how it is opened; an option or value that is not known
makes the location invalid. The name may be a reference to a file, with options of its own that
count over those of the location. -/

namespace AccessLog.Store
open AccessLog.Net AccessLog.Text

inductive Place where
  | memory
  | nameless
  | file (path : String)
  deriving DecidableEq, Repr

structure Location where
  place : Place
  readOnly : Bool
  /-- Whether a missing file is created. -/
  create : Bool
  deriving DecidableEq, Repr

/-- The files around, as far as a table is concerned. -/
structure Surroundings where
  isFile : String → Bool
  canCreate : String → Bool

/-- No files, and no place for any. -/
def Surroundings.bare : Surroundings := ⟨fun _ => false, fun _ => false⟩

namespace Location

/-! ## Options -/

/-- What may be done to a file. -/
inductive Access where
  | read
  | write
  | create
  deriving DecidableEq, Repr

/-- How much a kind of access allows. -/
def Access.rank : Access → Nat
  | read => 0
  | write => 1
  | create => 2

/-- How a table is opened. -/
structure Opening where
  access : Access
  inMemory : Bool
  /-- The system of files, if it is named. -/
  system : Option String
  /-- Whether the file is taken to never change. -/
  immutable : Bool
  deriving DecidableEq, Repr

/-- The system of files in memory. -/
def memorySystem : String := "memdb"

/-- The systems of files that there are. -/
def systems : List String := ["unix", "unix-none", "unix-dotfile", "unix-excl", memorySystem]

/-- Values of the option that says who shares pages with whom. -/
def sharings : List String := ["private", "shared"]

/-- Apply one option of a location. Reading alone is not taken back. -/
def withOption (o : Opening) : String × String → Option Opening
  | ("mode", "ro") => some { o with access := .read }
  | ("mode", "rw") => some o
  | ("mode", "rwc") => some (if o.access = .read then o else { o with access := .create })
  | ("mode", "memory") => some { o with inMemory := true }
  | ("cache", value) => if sharings.contains value then some o else none
  | ("immutable", value) =>
    if ["true", "1"].contains value then some { o with immutable := true }
    else if ["false", "0"].contains value then some { o with immutable := false }
    else none
  | ("vfs", value) => some { o with system := some value }
  | _ => none

/-- Ask for a kind of access. More than there is cannot be had, but memory allows everything. -/
def withAccess (o : Opening) (access : Access) : Option Opening :=
  if o.inMemory || access.rank ≤ o.access.rank then some { o with access, inMemory := false }
  else none

/-- Apply one option of a reference. Options that are not known are passed over. -/
def withReferenceOption (o : Opening) : String × String → Option Opening
  | ("mode", "ro") => withAccess o .read
  | ("mode", "rw") => withAccess o .write
  | ("mode", "rwc") => withAccess o .create
  | ("mode", "memory") => some { o with access := .write, inMemory := true }
  | ("mode", _) => none
  | ("cache", value) => if sharings.contains value then some o else none
  | ("vfs", value) => some { o with system := some value }
  | _ => some o

/-! ## Names -/

/-- The place that a plain name stands for. -/
def placeOf (o : Opening) (name : String) : Place :=
  if o.inMemory || name = ":memory:" then .memory
  else if name.isEmpty then .nameless
  else if o.system = some memorySystem then .memory
  else .file name

/-- Whether a name is one of a file, on whatever system. -/
def isOfFile (o : Opening) (name : String) : Bool :=
  !o.inMemory && name != ":memory:" && !name.isEmpty

/-- The location of a table with a plain name, if the system of files is there. -/
def settle (o : Opening) (name : String) : Option Location :=
  if o.system.all systems.contains then
    some { place := placeOf o name
           readOnly := o.access = .read || (o.immutable && isOfFile o name)
           create := o.access = .create }
  else none

/-- A piece of a reference without percent signs. A zero byte ends it. -/
def plainBytes (piece : List UInt8) : List UInt8 := (percentDecode piece).takeWhile (· != 0)

/-- The path in a reference, behind a host, which can only be this one. -/
def behindHost? : List UInt8 → Option (List UInt8)
  | 47 :: 47 :: rest =>
    if ["", "localhost"].contains (decodeLenient (rest.takeWhile (· != 47))) then
      some (rest.dropWhile (· != 47))
    else none
  | path => some path

/-- The options of a reference. One without a name is passed over. -/
def referenceOptions (bytes : List UInt8) : List (String × String) :=
  ((bytes.splitOn 38).map fun option =>
    (decodeLenient (plainBytes (option.takeWhile (· != 61))),
      decodeLenient (plainBytes ((option.dropWhile (· != 61)).drop 1)))).filter fun (name, _) =>
    !name.isEmpty

/-- The location of a table whose name is a reference; `bytes` are those behind its scheme. -/
def ofReference? (o : Opening) (bytes : List UInt8) : Option Location := do
  let bytes ← behindHost? bytes
  let bytes := bytes.takeWhile (· != 35)
  let o ← (referenceOptions ((bytes.dropWhile (· != 63)).drop 1)).foldlM withReferenceOption o
  settle o (decodeLenient (plainBytes (bytes.takeWhile (· != 63))))

/-- The location of a table with the given name. Where a system of files is named or the file never
changes, the name is taken as it stands. -/
def ofName? (o : Opening) (name : List UInt8) : Option Location :=
  if o.system.isSome || o.immutable then settle o (decodeLenient (name.takeWhile (· != 0)))
  else if name.contains 0 then none
  else match name with
    | 102 :: 105 :: 108 :: 101 :: 58 :: reference => ofReference? o reference
    | _ => settle o (decodeLenient name)

/-! ## Locations -/

/-- A text behind all repetitions of a mark at its front. -/
def dropMarks (mark cs : List Char) : List Char :=
  if mark ≠ [] ∧ mark <+: cs then dropMarks mark (cs.drop mark.length) else cs
termination_by cs.length
decreasing_by
  rename_i h
  have := List.length_pos_iff.mpr h.1
  have := h.2.length_le
  simp only [List.length_drop]
  omega

def parse? (url : String) : Option Location := do
  let bare := dropMarks "sqlite:".toList (dropMarks "sqlite://".toList url.toList)
  let name := percentDecode (encode (String.ofList (bare.takeWhile (· != '?'))))
  let _ ← decode? name
  let options := Query.pairs (String.ofList ((bare.dropWhile (· != '?')).drop 1))
  ofName? (← options.foldlM withOption ⟨.write, false, none, false⟩) name

/-- Whether there is a table to open. -/
def isReachable (l : Location) (around : Surroundings) : Bool :=
  match l.place with
  | .memory => true
  | .nameless => true
  | .file path => around.isFile path || (l.create && around.canCreate path)

end Location

/-- Stores of two kinds make up one kind. -/
instance {α β : Type} [AnalysisStore α] [AnalysisStore β] : AnalysisStore (α ⊕ β) where
  save s a :=
    match s with
    | .inl s => let (saved, s) := AnalysisStore.save s a; (saved, .inl s)
    | .inr s => let (saved, s) := AnalysisStore.save s a; (saved, .inr s)
  find s id :=
    match s with
    | .inl s => AnalysisStore.find s id
    | .inr s => AnalysisStore.find s id

end AccessLog.Store
