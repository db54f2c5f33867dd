import Mathlib.Data.List.Infix
import Mathlib.Logic.Function.Basic

/-! # Directories and files

A file system is a table of directory entries and the bytes of its inodes.  Renaming a file moves
its entry and leaves the bytes, so a reader of a name meets the whole of one file or of another.
There are no hard links: that is a field of the type.
-/

namespace ParserServe.Foundation

/-- An absolute path as its segments. -/
abbrev Path := List (List Char)

inductive Entry
  | directory
  | file (inode : Nat)
  deriving DecidableEq

structure FileSystem where
  entries : Path → Option Entry
  contents : Nat → List UInt8
  nextInode : Nat
  inode_lt : ∀ {path inode}, entries path = some (.file inode) → inode < nextInode
  single : ∀ {path other inode}, entries path = some (.file inode) →
    entries other = some (.file inode) → path = other

namespace FileSystem

variable {fs fs' : FileSystem} {path other source target : Path} {inode : Nat}
  {bytes : List UInt8}

/-- The inode a path names, `none` where it names no file. -/
def file? (fs : FileSystem) (path : Path) : Option Nat :=
  match fs.entries path with
  | some (.file inode) => some inode
  | _ => none

/-- The bytes of the file a path names. -/
def read? (fs : FileSystem) (path : Path) : Option (List UInt8) :=
  (fs.file? path).map fs.contents

theorem file?_eq_some : fs.file? path = some inode ↔ fs.entries path = some (.file inode) := by
  unfold file?
  split <;> simp_all

theorem file?_congr (h : fs'.entries path = fs.entries path) : fs'.file? path = fs.file? path := by
  rw [file?, file?, h]

theorem read?_of_file (h : fs.entries path = some (.file inode)) :
    fs.read? path = some (fs.contents inode) := by
  rw [read?, file?_eq_some.mpr h, Option.map_some]

theorem read?_congr (hentry : fs'.entries path = fs.entries path)
    (hbytes : ∀ inode, fs.entries path = some (.file inode) →
      fs'.contents inode = fs.contents inode) : fs'.read? path = fs.read? path := by
  rw [read?, read?, file?_congr hentry]
  cases hfile : fs.file? path with
  | none => rfl
  | some inode => exact congrArg some (hbytes inode (file?_eq_some.mp hfile))

/-! ## Directories -/

/-- No prefix of the path names a file. -/
def NoFileOn (fs : FileSystem) (path : Path) : Prop :=
  ∀ segment ∈ path.inits, fs.file? segment = none

instance (fs : FileSystem) (path : Path) : Decidable (fs.NoFileOn path) :=
  inferInstanceAs (Decidable (∀ segment ∈ path.inits, _))

/-- `mkdir -p`, for a path on which no file stands. -/
def makeDirs (fs : FileSystem) (path : Path) (_free : fs.NoFileOn path) : FileSystem where
  entries other := if other ∈ path.inits then some .directory else fs.entries other
  contents := fs.contents
  nextInode := fs.nextInode
  inode_lt := by
    intro other inode hentry
    split at hentry
    · cases hentry
    · exact fs.inode_lt hentry
  single := by
    intro first second inode hfirst hsecond
    split at hfirst
    · cases hfirst
    · split at hsecond
      · cases hsecond
      · exact fs.single hfirst hsecond

theorem makeDirs_of_notMem {h : fs.NoFileOn path} (hnot : other ∉ path.inits) :
    (fs.makeDirs path h).entries other = fs.entries other := if_neg hnot

theorem makeDirs_file {h : fs.NoFileOn path} :
    (fs.makeDirs path h).entries other = some (.file inode) ↔
      fs.entries other = some (.file inode) := by
  simp only [makeDirs]
  split
  · next hmem =>
      have hnone := h other hmem
      constructor
      · intro hentry
        cases hentry
      · intro hentry
        rw [file?_eq_some.mpr hentry] at hnone
        cases hnone
  · rfl

@[simp] theorem read?_makeDirs {h : fs.NoFileOn path} :
    (fs.makeDirs path h).read? other = fs.read? other := by
  have hfile : (fs.makeDirs path h).file? other = fs.file? other := by
    ext inode
    rw [file?_eq_some, file?_eq_some, makeDirs_file]
  rw [read?, read?, hfile, makeDirs]

/-! ## Files -/

/-- A new empty file. -/
def create (fs : FileSystem) (path : Path) : FileSystem where
  entries := Function.update fs.entries path (some (.file fs.nextInode))
  contents := Function.update fs.contents fs.nextInode []
  nextInode := fs.nextInode + 1
  inode_lt := by
    intro other inode hentry
    by_cases heq : other = path
    · rw [heq, Function.update_self] at hentry
      cases hentry
      exact Nat.lt_succ_self _
    · rw [Function.update_of_ne heq] at hentry
      exact Nat.lt_succ_of_lt (fs.inode_lt hentry)
  single := by
    intro first second inode hfirst hsecond
    by_cases hf : first = path <;> by_cases hs : second = path
    · rw [hf, hs]
    · rw [hf, Function.update_self] at hfirst
      rw [Function.update_of_ne hs] at hsecond
      cases hfirst
      exact absurd (fs.inode_lt hsecond) (Nat.lt_irrefl _)
    · rw [hs, Function.update_self] at hsecond
      rw [Function.update_of_ne hf] at hfirst
      cases hsecond
      exact absurd (fs.inode_lt hfirst) (Nat.lt_irrefl _)
    · rw [Function.update_of_ne hf] at hfirst
      rw [Function.update_of_ne hs] at hsecond
      exact fs.single hfirst hsecond

@[simp] theorem create_self :
    (fs.create path).entries path = some (.file fs.nextInode) := Function.update_self ..

theorem create_of_ne (h : other ≠ path) :
    (fs.create path).entries other = fs.entries other := Function.update_of_ne h ..

theorem contents_create (h : inode < fs.nextInode) :
    (fs.create path).contents inode = fs.contents inode :=
  Function.update_of_ne (Nat.ne_of_lt h) ..

theorem contents_create_self : (fs.create path).contents fs.nextInode = [] :=
  Function.update_self ..

theorem read?_create (h : other ≠ path) : (fs.create path).read? other = fs.read? other :=
  read?_congr (create_of_ne h) fun _ hentry => contents_create (fs.inode_lt hentry)

/-- Bytes written at the end of an open file. -/
def append (fs : FileSystem) (inode : Nat) (bytes : List UInt8) : FileSystem :=
  { fs with contents := Function.update fs.contents inode (fs.contents inode ++ bytes) }

@[simp] theorem append_entries : (fs.append inode bytes).entries = fs.entries := rfl

@[simp] theorem append_nextInode : (fs.append inode bytes).nextInode = fs.nextInode := rfl

@[simp] theorem contents_append_self :
    (fs.append inode bytes).contents inode = fs.contents inode ++ bytes :=
  Function.update_self ..

theorem contents_append_of_ne {i : Nat} (h : i ≠ inode) :
    (fs.append inode bytes).contents i = fs.contents i := Function.update_of_ne h ..

@[simp] theorem append_nil : fs.append inode [] = fs := by
  simp [append]

theorem read?_append (h : fs.entries other ≠ some (.file inode)) :
    (fs.append inode bytes).read? other = fs.read? other := by
  apply read?_congr (congrFun append_entries other)
  intro i hentry
  apply contents_append_of_ne
  intro heq
  exact h (heq ▸ hentry)

/-- `unlink`. -/
def unlink (fs : FileSystem) (path : Path) : FileSystem where
  entries := Function.update fs.entries path none
  contents := fs.contents
  nextInode := fs.nextInode
  inode_lt := by
    intro other inode hentry
    by_cases heq : other = path
    · rw [heq, Function.update_self] at hentry
      cases hentry
    · rw [Function.update_of_ne heq] at hentry
      exact fs.inode_lt hentry
  single := by
    intro first second inode hfirst hsecond
    by_cases hf : first = path
    · rw [hf, Function.update_self] at hfirst
      cases hfirst
    · by_cases hs : second = path
      · rw [hs, Function.update_self] at hsecond
        cases hsecond
      · rw [Function.update_of_ne hf] at hfirst
        rw [Function.update_of_ne hs] at hsecond
        exact fs.single hfirst hsecond

@[simp] theorem unlink_self : (fs.unlink path).entries path = none := Function.update_self ..

theorem unlink_of_ne (h : other ≠ path) : (fs.unlink path).entries other = fs.entries other :=
  Function.update_of_ne h ..

@[simp] theorem contents_unlink : (fs.unlink path).contents = fs.contents := rfl

@[simp] theorem unlink_nextInode : (fs.unlink path).nextInode = fs.nextInode := rfl

@[simp] theorem read?_unlink_self : (fs.unlink path).read? path = none := by
  rw [read?, file?, unlink_self]
  rfl

theorem read?_unlink (h : other ≠ path) : (fs.unlink path).read? other = fs.read? other :=
  read?_congr (unlink_of_ne h) fun _ _ => rfl

/-- `rename` of the file `inode` from `source`, over whatever file stands at `target`. -/
def rename (fs : FileSystem) (source target : Path) (inode : Nat)
    (h : fs.entries source = some (.file inode)) : FileSystem where
  entries := Function.update (Function.update fs.entries source none) target
    (some (.file inode))
  contents := fs.contents
  nextInode := fs.nextInode
  inode_lt := by
    intro other i hentry
    by_cases heq : other = target
    · rw [heq, Function.update_self] at hentry
      cases hentry
      exact fs.inode_lt h
    · rw [Function.update_of_ne heq] at hentry
      exact (fs.unlink source).inode_lt hentry
  single := by
    intro first second i hfirst hsecond
    have hmoved : ∀ {other}, (fs.unlink source).entries other ≠ some (.file inode) := by
      intro other hentry
      by_cases heq : other = source
      · rw [heq, unlink_self] at hentry
        cases hentry
      · rw [unlink_of_ne heq] at hentry
        exact heq (fs.single hentry h)
    by_cases hf : first = target <;> by_cases hs : second = target
    · rw [hf, hs]
    · rw [hf, Function.update_self] at hfirst
      rw [Function.update_of_ne hs] at hsecond
      cases hfirst
      exact absurd hsecond hmoved
    · rw [hs, Function.update_self] at hsecond
      rw [Function.update_of_ne hf] at hfirst
      cases hsecond
      exact absurd hfirst hmoved
    · rw [Function.update_of_ne hf] at hfirst
      rw [Function.update_of_ne hs] at hsecond
      exact (fs.unlink source).single hfirst hsecond

variable {h : fs.entries source = some (.file inode)}

@[simp] theorem rename_target :
    (fs.rename source target inode h).entries target = some (.file inode) :=
  Function.update_self ..

theorem rename_of_ne (htarget : other ≠ target) (hsource : other ≠ source) :
    (fs.rename source target inode h).entries other = fs.entries other := by
  show Function.update (Function.update fs.entries source none) target _ other = _
  rw [Function.update_of_ne htarget, Function.update_of_ne hsource]

theorem rename_source (hne : source ≠ target) :
    (fs.rename source target inode h).entries source = none := by
  show Function.update (Function.update fs.entries source none) target _ source = _
  rw [Function.update_of_ne hne, Function.update_self]

@[simp] theorem contents_rename : (fs.rename source target inode h).contents = fs.contents := rfl

@[simp] theorem rename_nextInode :
    (fs.rename source target inode h).nextInode = fs.nextInode := rfl

/-- `os.replace` of a file: over a file or a free name, not over a directory. -/
def replace? (fs : FileSystem) (source target : Path) : Option FileSystem :=
  match h : fs.entries source with
  | some (.file inode) =>
      if fs.entries target = some .directory then none
      else some (fs.rename source target inode h)
  | _ => none

theorem replace?_eq_some (hreplace : fs.replace? source target = some fs') :
    ∃ inode h, fs' = fs.rename source target inode h := by
  unfold replace? at hreplace
  split at hreplace
  · next inode h =>
      split at hreplace
      · cases hreplace
      · cases hreplace
        exact ⟨inode, h, rfl⟩
  · cases hreplace

theorem read?_rename_target :
    (fs.rename source target inode h).read? target = some (fs.contents inode) :=
  read?_of_file rename_target

theorem read?_rename (htarget : other ≠ target) (hsource : other ≠ source) :
    (fs.rename source target inode h).read? other = fs.read? other :=
  read?_congr (rename_of_ne htarget hsource) fun _ _ => rfl

end FileSystem

end ParserServe.Foundation
