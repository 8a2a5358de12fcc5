import DraEnv.GoStd.Strings

/-!
The file operations of Go's `os` and `path/filepath` that the sources
call.

A file system is what its operations do to its state. They are
deterministic but otherwise arbitrary: any of them may fail at any point
and may change the state, reads included.
-/

namespace DraEnv.GoStd

/-- An error of a file operation: what `errors.Is(err, os.ErrNotExist)` says about
it, and its text. -/
structure FsError where
  notExist : Bool
  text : GoString
  deriving DecidableEq, Repr

/-- The part of an `fs.FileInfo` the sources look at. -/
structure FileInfo where
  isDir : Bool
  deriving DecidableEq, Repr

/-- An `fs.DirEntry`: its name and its type. -/
structure DirEntry where
  name : GoString
  isDir : Bool
  isSymlink : Bool
  deriving DecidableEq, Repr

/-- What `os.ReadDir` returns. A directory holds a name once. -/
structure Listing where
  entries : List DirEntry
  nodup : (entries.map DirEntry.name).Nodup

/-- `sort.Slice` by name. No two names are equal, so the order is determined. -/
def sortEntries (entries : List DirEntry) : List DirEntry :=
  entries.mergeSort fun a b => decide (a.name ≤ b.name)

theorem mem_sortEntries {entries : List DirEntry} {entry : DirEntry} :
    entry ∈ sortEntries entries ↔ entry ∈ entries :=
  (List.mergeSort_perm entries _).mem_iff

theorem sortEntries_sorted {entries : List DirEntry}
    (h : (entries.map DirEntry.name).Nodup) :
    (sortEntries entries).Pairwise fun a b => a.name < b.name := by
  have hle : (sortEntries entries).Pairwise fun a b => a.name ≤ b.name := by
    have hsorted := @List.pairwise_mergeSort _ (fun a b : DirEntry => decide (a.name ≤ b.name))
      (by simpa using fun a b c : DirEntry => List.le_trans)
      (by simpa using fun a b : DirEntry => List.le_total a.name b.name) entries
    simpa [sortEntries] using hsorted
  have hperm : ((sortEntries entries).map DirEntry.name).Perm (entries.map DirEntry.name) :=
    (List.mergeSort_perm entries _).map _
  have hne : (sortEntries entries).Pairwise fun a b => a.name ≠ b.name :=
    List.pairwise_map.mp (hperm.nodup_iff.mpr h)
  refine (hle.and hne).imp ?_
  rintro a b ⟨hle, hne⟩
  rcases List.le_iff_lt_or_eq.mp hle with hlt | heq
  · exact hlt
  · exact absurd heq hne

structure Filesystem (σ : Type) where
  stat : GoString → σ → Except FsError FileInfo × σ
  readDir : GoString → σ → Except FsError Listing × σ
  readFile : GoString → σ → Except FsError Bytes × σ
  evalSymlinks : GoString → σ → Except FsError GoString × σ
  writeFile : GoString → Bytes → σ → Option FsError × σ

end DraEnv.GoStd
