import DraEnv.GoStd.Binary

/-!
The parts of Go's `strings` and `sort` packages the sources use: white
space as `strings.TrimSpace` sees it, prefixes, and the byte order of
`sort.Strings`.
-/

namespace DraEnv.GoStd

/-- The length of the white space character a string starts with, `0` if it
starts with none. These are the UTF-8 encodings of the characters for which
`unicode.IsSpace` holds; a byte that starts no valid encoding decodes to U+FFFD,
which is no space. -/
def spaceLen : GoString → Nat
  | 0x09 :: _ | 0x0A :: _ | 0x0B :: _ | 0x0C :: _ | 0x0D :: _ | 0x20 :: _ => 1
  | 0xC2 :: 0x85 :: _ | 0xC2 :: 0xA0 :: _ => 2
  | 0xE1 :: 0x9A :: 0x80 :: _ => 3
  | 0xE2 :: 0x80 :: b :: _ =>
      if (0x80 ≤ b ∧ b ≤ 0x8A) ∨ b = 0xA8 ∨ b = 0xA9 ∨ b = 0xAF then 3 else 0
  | 0xE2 :: 0x81 :: 0x9F :: _ => 3
  | 0xE3 :: 0x80 :: 0x80 :: _ => 3
  | _ => 0

/-- `strings.TrimLeftFunc(s, unicode.IsSpace)`; every turn of the loop drops at
least one byte, so `s.length` turns are enough. -/
def trimLeftSpace (s : GoString) : GoString :=
  go s.length s
where
  go : Nat → GoString → GoString
    | 0, s => s
    | fuel + 1, s => if spaceLen s = 0 then s else go fuel (s.drop (spaceLen s))

/-- `strings.TrimSpace(s) == ""`: once the leading white space is gone, trimming
the end can only remove what follows a character that stays. -/
def isBlank (s : GoString) : Bool := (trimLeftSpace s).isEmpty

theorem isBlank_of_spaceLen {s : GoString} (hs : s ≠ []) (h : spaceLen s = 0) :
    isBlank s = false := by
  cases s with
  | nil => exact absurd rfl hs
  | cons b s =>
      rw [isBlank, trimLeftSpace, List.length_cons, trimLeftSpace.go, if_pos h]
      rfl

example : isBlank (lit " \t\n") = true := by decide

example : isBlank (lit "\u00a0\u2003x") = false := by decide

/-- The length of the white space character a string ends in, if it ends in one. The
last bytes of a longer encoding are no encoding, so at most one length fits. -/
def trailingSpace (s : GoString) : Option Nat :=
  [1, 2, 3].find? fun k => decide (k ≤ s.length ∧ spaceLen (s.drop (s.length - k)) = k)

/-- `strings.TrimRightFunc(s, unicode.IsSpace)` -/
def trimRightSpace (s : GoString) : GoString :=
  go s.length s
where
  go : Nat → GoString → GoString
    | 0, s => s
    | fuel + 1, s =>
        match trailingSpace s with
        | none => s
        | some k => go fuel (s.take (s.length - k))

/-- `strings.TrimSpace` -/
def trimSpace (s : GoString) : GoString := trimRightSpace (trimLeftSpace s)

example : trimSpace (lit "\u00a0 16\u2003\n") = lit "16" := by decide

/-- `strings.HasPrefix` -/
def startsWith (s front : GoString) : Bool := front.isPrefixOf s

/-- `strings.TrimPrefix` -/
def trimFront (s front : GoString) : GoString :=
  if front.isPrefixOf s then s.drop front.length else s

/-- The loop of `strings.Split`: `cur` is the part under way, and `skip` bytes of a separator
are still to be passed over. -/
def splitFrom (sep : GoString) : Nat → GoString → GoString → List GoString
  | _, cur, [] => [cur]
  | skip + 1, cur, _ :: s => splitFrom sep skip cur s
  | 0, cur, b :: s =>
      if sep.isPrefixOf (b :: s) then cur :: splitFrom sep (sep.length - 1) [] s
      else splitFrom sep 0 (cur ++ [b]) s

/-- `strings.Split`, for a separator that is not empty. -/
def split (s sep : GoString) : List GoString := splitFrom sep 0 [] s

example : split (lit "cri-o://4f://0") (lit "://") = [lit "cri-o", lit "4f", lit "0"] := by decide

theorem splitFrom_skip (sep cur s : GoString) (skipped : GoString) :
    splitFrom sep skipped.length cur (skipped ++ s) = splitFrom sep 0 cur s := by
  induction skipped with
  | nil => rfl
  | cons b skipped ih => exact ih

theorem splitFrom_front {c : UInt8} {sep front : GoString} (hfront : c ∉ front) (cur s : GoString) :
    splitFrom (c :: sep) 0 cur (front ++ s) = splitFrom (c :: sep) 0 (cur ++ front) s := by
  induction front generalizing cur with
  | nil => simp
  | cons b front ih =>
      rw [List.mem_cons, not_or] at hfront
      rw [List.cons_append, splitFrom, if_neg (by simp [hfront.1]), ih hfront.2]
      simp

/-- Two parts in which the separator does not even begin. -/
theorem split_pair {c : UInt8} {sep front back : GoString} (hfront : c ∉ front)
    (hback : c ∉ back) : split (front ++ (c :: sep) ++ back) (c :: sep) = [front, back] := by
  have hlast : splitFrom (c :: sep) 0 [] back = [back] := by
    rw [← List.append_nil back, splitFrom_front hback]
    simp [splitFrom]
  rw [split, List.append_assoc, splitFrom_front hfront, List.nil_append, List.cons_append,
    splitFrom, if_pos (by simp), List.length_cons, Nat.add_sub_cancel, splitFrom_skip, hlast]

/-- `strings.ReplaceAll` of one byte by another. -/
def replaceByte (s : GoString) (old new : UInt8) : GoString :=
  s.map fun b => if b = old then new else b

theorem replaceByte_inj {s s' : GoString} {old new : UInt8} (hs : new ∉ s) (hs' : new ∉ s')
    (h : replaceByte s old new = replaceByte s' old new) : s = s' := by
  induction s generalizing s' with
  | nil =>
      cases s' with
      | nil => rfl
      | cons b' s' => simp [replaceByte] at h
  | cons b s ih =>
      cases s' with
      | nil => simp [replaceByte] at h
      | cons b' s' =>
          rw [List.mem_cons, not_or] at hs hs'
          obtain ⟨hb, hrest⟩ := List.cons.inj h
          rw [ih hs.2 hs'.2 hrest]
          congr 1
          by_cases hold : b = old <;> by_cases hold' : b' = old <;> simp_all

/-- Sort by byte order. The order is total, so that the sort is not stable does
not show. -/
def sortStrings (l : List GoString) : List GoString := l.mergeSort (fun a b => decide (a ≤ b))

theorem sortStrings_perm (l : List GoString) : (sortStrings l).Perm l :=
  List.mergeSort_perm l _

theorem sortStrings_sorted (l : List GoString) : (sortStrings l).Pairwise (· ≤ ·) := by
  have h := @List.pairwise_mergeSort _ (fun a b : GoString => decide (a ≤ b))
    (by simpa using fun a b c : GoString => List.le_trans)
    (by simpa using fun a b : GoString => List.le_total a b) l
  simpa [sortStrings] using h

/-- Sorting strings without duplicates puts them in strictly increasing order. -/
theorem sortStrings_strictly_sorted {l : List GoString} (hl : l.Nodup) :
    (sortStrings l).Pairwise (· < ·) := by
  have hnodup := (sortStrings_perm l).nodup_iff.mpr hl
  refine ((sortStrings_sorted l).and hnodup).imp ?_
  rintro a b ⟨hle, hne⟩
  rcases List.le_iff_lt_or_eq.mp hle with hlt | heq
  · exact hlt
  · exact absurd heq hne

/-- A common front does not matter for the order. -/
theorem append_lt_append_iff (p a b : GoString) : p ++ a < p ++ b ↔ a < b := by
  induction p with
  | nil => simp
  | cons c p ih => simp [ih]

theorem sortStrings_map_append (p : GoString) (l : List GoString) :
    sortStrings (l.map (p ++ ·)) = (sortStrings l).map (p ++ ·) := by
  refine List.Perm.eq_of_pairwise (fun _ _ _ _ => List.le_antisymm) (sortStrings_sorted _) ?_ ?_
  · rw [List.pairwise_map]
    refine (sortStrings_sorted l).imp ?_
    intro a b hab
    rw [← List.not_lt] at hab ⊢
    rwa [append_lt_append_iff]
  · exact (sortStrings_perm _).trans ((sortStrings_perm l).map _).symm

/-- Strictly increasing lists with the same members are the same list. -/
theorem eq_of_pairwise_lt {l l' : List GoString} (h : l.Pairwise (· < ·))
    (h' : l'.Pairwise (· < ·)) (hmem : ∀ name, name ∈ l ↔ name ∈ l') : l = l' := by
  have hperm := (List.perm_ext_iff_of_nodup h.nodup h'.nodup).mpr hmem
  refine List.Perm.eq_of_pairwise ?_ h h' hperm
  intro a b _ _ hab hba
  exact absurd hba (List.lt_asymm hab)

end DraEnv.GoStd
