import DraEnv.Dramachine.FixedPoint
import DraEnv.PyStd.Re

/-!
The version in a machine type.

`ensure_machine_type` looks for the version with a regular expression.
The match it finds is the only one there is: a version holds no dash and
no newline, so it starts after the last dash and stops at the end of the
string or before its final newline. The model reads it off there
(`searchVersion_eq`), and the new machine type ends in the same version
or, like the old one, in none.
-/

namespace DraEnv.Dramachine

open DraEnv.Foundation DraEnv.PyStd

/-! ### The pattern -/

/-- `\d+` -/
def digits : Re := .plus (.set isDecimal)

/-- `\d+(\.\d+)+` -/
def versionDigits : Re :=
  .seq digits (.plus (.group 3 (.seq (.set (· == '.')) digits)))

/-- `(-(\d+(\.\d+)+))$` -/
def versionPattern : Re :=
  .seq (.group 1 (.seq (.set (· == '-')) (.group 2 versionDigits))) .atEnd

/-! ### Versions -/

structure Digits (group : PyStr) : Prop where
  ne_nil : group ≠ []
  decimal : ∀ c ∈ group, isDecimal c = true

/-- Two or more groups of decimal digits, separated by dots. -/
def Version (v : PyStr) : Prop :=
  ∃ groups : List PyStr, 2 ≤ groups.length ∧ (∀ group ∈ groups, Digits group) ∧
    ['.'].intercalate groups = v

/-- Up to a newline at its end, the string ends in a dash and the version. -/
def EndsIn (m v : PyStr) : Prop :=
  Version v ∧ ('-' :: v <:+ m ∨ '-' :: v ++ ['\n'] <:+ m)

theorem Digits.not_mem {group : PyStr} (h : Digits group) {c : Char} (hc : isDecimal c = false) :
    c ∉ group := by
  intro hmem
  rw [h.decimal c hmem] at hc
  simp at hc

theorem intercalate_dot (first : PyStr) (groups : List PyStr) :
    ['.'].intercalate (first :: groups) = first ++ groups.flatMap ('.' :: ·) := by
  induction groups generalizing first with
  | nil => simp
  | cons group groups ih =>
      rw [List.intercalate_cons_cons, ih, List.flatMap_cons]
      simp

theorem version_iff {v : PyStr} :
    Version v ↔ ∃ first groups, Digits first ∧ groups ≠ [] ∧ (∀ group ∈ groups, Digits group) ∧
      first ++ groups.flatMap ('.' :: ·) = v := by
  constructor
  · rintro ⟨_ | ⟨first, groups⟩, hlength, hgroups, rfl⟩
    · simp at hlength
    · rw [List.forall_mem_cons] at hgroups
      refine ⟨first, groups, hgroups.1, ?_, hgroups.2, (intercalate_dot first groups).symm⟩
      rintro rfl
      simp at hlength
  · rintro ⟨first, groups, hfirst, hne, hgroups, rfl⟩
    have hpos := List.length_pos_iff.mpr hne
    refine ⟨first :: groups, ?_, List.forall_mem_cons.mpr ⟨hfirst, hgroups⟩,
      intercalate_dot first groups⟩
    rw [List.length_cons]
    omega

theorem Version.not_mem {v : PyStr} (h : Version v) {c : Char} (hc : isDecimal c = false)
    (hne : c ≠ '.') : c ∉ v := by
  obtain ⟨first, groups, hfirst, -, hgroups, rfl⟩ := version_iff.mp h
  rw [List.mem_append, not_or, List.mem_flatMap]
  refine ⟨hfirst.not_mem hc, ?_⟩
  rintro ⟨group, hgroup, hmem⟩
  rcases List.mem_cons.mp hmem with heq | hmem
  · exact hne heq
  · exact (hgroups group hgroup).not_mem hc hmem

theorem Version.dash_not_mem {v : PyStr} (h : Version v) : '-' ∉ v :=
  h.not_mem (by decide) (by decide)

theorem Version.newline_not_mem {v : PyStr} (h : Version v) : '\n' ∉ v :=
  h.not_mem (by decide) (by decide)

theorem isVersion_iff {v : PyStr} : isVersion v = true ↔ Version v := by
  have hgroup : ∀ group : PyStr,
      (!group.isEmpty && group.all isDecimal) = true ↔ Digits group := by
    intro group
    rw [Bool.and_eq_true, List.all_eq_true]
    constructor
    · rintro ⟨hne, hdecimal⟩
      exact ⟨by simpa using hne, hdecimal⟩
    · intro h
      exact ⟨by simpa using h.ne_nil, h.decimal⟩
  simp only [isVersion, Bool.and_eq_true, decide_eq_true_eq, List.all_eq_true, hgroup]
  constructor
  · rintro ⟨hlength, hgroups⟩
    exact ⟨v.splitOn '.', hlength, hgroups, List.intercalate_splitOn '.'⟩
  · rintro ⟨groups, hlength, hgroups, rfl⟩
    have hne : groups ≠ [] := by
      rintro rfl
      simp at hlength
    have hdot : isDecimal '.' = false := by decide
    rw [List.splitOn_intercalate '.' (fun group h => (hgroups group h).not_mem hdot) hne]
    exact ⟨hlength, hgroups⟩

/-! ### Matching at one position -/

theorem matches_char_seq {c : Char} {r : Re} {w rest : PyStr} :
    Re.Matches (.seq (.set (· == c)) r) w rest ↔ ∃ w', Re.Matches r w' rest ∧ c :: w' = w := by
  rw [Re.matches_seq]
  constructor
  · rintro ⟨_, w', hchar, hr, rfl⟩
    obtain ⟨c', hc', rfl⟩ := Re.matches_set.mp hchar
    rw [beq_iff_eq.mp hc']
    exact ⟨w', hr, rfl⟩
  · rintro ⟨w', hr, rfl⟩
    exact ⟨[c], w', Re.matches_set.mpr ⟨c, beq_self_eq_true c, rfl⟩, hr, rfl⟩

theorem matches_digits {w rest : PyStr} : Re.Matches digits w rest ↔ Digits w := by
  rw [digits, Re.matches_plus fun _ _ => Re.matches_set]
  constructor
  · rintro ⟨w, hne, hdecimal, rfl⟩
    rw [List.flatMap_singleton']
    exact ⟨hne, hdecimal⟩
  · intro h
    exact ⟨w, h.ne_nil, h.decimal, List.flatMap_singleton' w⟩

theorem matches_versionDigits {w rest : PyStr} :
    Re.Matches versionDigits w rest ↔ Version w := by
  have hgroup : ∀ w rest, Re.Matches (.group 3 (.seq (.set (· == '.')) digits)) w rest ↔
      ∃ group, Digits group ∧ '.' :: group = w := by
    intro w rest
    simp only [Re.matches_group, matches_char_seq, matches_digits]
  simp only [versionDigits, Re.matches_seq, matches_digits, Re.matches_plus hgroup, version_iff]
  constructor
  · rintro ⟨first, _, hfirst, ⟨groups, hne, hgroups, rfl⟩, rfl⟩
    exact ⟨first, groups, hfirst, hne, hgroups, rfl⟩
  · rintro ⟨first, groups, hfirst, hne, hgroups, rfl⟩
    exact ⟨first, _, hfirst, ⟨groups, hne, hgroups, rfl⟩, rfl⟩

theorem matches_suffix {w rest : PyStr} :
    Re.Matches (.seq (.set (· == '-')) (.group 2 versionDigits)) w rest ↔
      ∃ v, Version v ∧ '-' :: v = w := by
  simp only [matches_char_seq, Re.matches_group, matches_versionDigits]

theorem chopNewline_append {v rest : PyStr} (hv : '\n' ∉ v) (hrest : Re.AtEnd rest) :
    chopNewline (v ++ rest) = v := by
  rcases hrest with rfl | rfl
  · have hlast : v.getLast? ≠ some '\n' := fun h => hv (List.mem_of_getLast? h)
    rw [List.append_nil, chopNewline, if_neg hlast]
  · rw [chopNewline, if_pos (by simp), List.dropLast_concat]

theorem exists_chopNewline (s : PyStr) : ∃ rest, Re.AtEnd rest ∧ chopNewline s ++ rest = s := by
  rw [chopNewline]
  split
  next h => exact ⟨['\n'], Or.inr rfl, List.dropLast_append_getLast? '\n' h⟩
  next => exact ⟨[], Or.inl rfl, List.append_nil s⟩

theorem matchVersion_eq_some {t u : PyStr} :
    matchVersion t = some u ↔
      ∃ v rest, Version v ∧ Re.AtEnd rest ∧ t = '-' :: v ++ rest ∧ '-' :: v = u := by
  constructor
  · intro h
    rw [matchVersion.eq_def] at h
    split at h
    next s =>
      split at h
      next hversion =>
        obtain ⟨rest, hend, hrest⟩ := exists_chopNewline s
        refine ⟨chopNewline s, rest, isVersion_iff.mp hversion, hend, ?_, Option.some.inj h⟩
        rw [List.cons_append, hrest]
      next => simp at h
    next => simp at h
  · rintro ⟨v, rest, hv, hend, rfl, rfl⟩
    rw [List.cons_append, matchVersion, chopNewline_append hv.newline_not_mem hend,
      if_pos (isVersion_iff.mpr hv)]

/-- The first way to match at a position gives the group the version that is read off. -/
theorem run_versionPattern (t : PyStr) :
    (versionPattern.run ⟨t, []⟩).head?.bind (·.group 1) = matchVersion t := by
  cases hfirst : (versionPattern.run ⟨t, []⟩).head? with
  | none =>
      symm
      rw [Option.bind_none, Option.eq_none_iff_forall_ne_some]
      intro u hu
      obtain ⟨v, rest, hv, hend, rfl, -⟩ := matchVersion_eq_some.mp hu
      exact Re.anchored_complete (matches_suffix.mpr ⟨v, hv, rfl⟩) hend
        (List.head?_eq_none_iff.mp hfirst)
  | some st' =>
      obtain ⟨w, hw, hmatch, hend, hgroup⟩ := Re.anchored_sound (List.mem_of_head? hfirst)
      obtain ⟨v, hv, rfl⟩ := matches_suffix.mp hmatch
      rw [Option.bind_some, hgroup]
      exact (matchVersion_eq_some.mpr ⟨v, st'.rest, hv, hend, hw, rfl⟩).symm

/-- `searchVersion` is the first group of the match `re.search` returns. -/
theorem searchVersion_eq (s : PyStr) :
    searchVersion s = (versionPattern.search s).bind (·.group 1) := by
  have hgroup : ∀ st st', st' ∈ versionPattern.run st → (st'.group 1).isSome = true := by
    intro st st' h
    obtain ⟨w, -, -, -, hw⟩ := Re.anchored_sound h
    rw [hw, Option.isSome_some]
  rw [Re.search_group hgroup, searchVersion]
  simp only [run_versionPattern]

/-! ### The version of a string -/

/-- What follows the last dash of a string. -/
theorem eq_of_dash_suffix {m s s' : PyStr} (hs : '-' ∉ s) (hs' : '-' ∉ s')
    (h : '-' :: s <:+ m) (h' : '-' :: s' <:+ m) : s = s' := by
  have hback : ∀ {a b : PyStr}, '-' ∉ b → '-' :: a <:+ '-' :: b → a = b := by
    intro a b hb hsuffix
    rcases List.suffix_cons_iff.mp hsuffix with heq | hsuffix
    · exact (List.cons.inj heq).2
    · exact absurd (hsuffix.subset List.mem_cons_self) hb
  rcases List.suffix_or_suffix_of_suffix h h' with hsuffix | hsuffix
  · exact hback hs' hsuffix
  · exact (hback hs hsuffix).symm

theorem endsIn_iff {m v : PyStr} :
    EndsIn m v ↔ Version v ∧ ∃ rest, Re.AtEnd rest ∧ '-' :: v ++ rest <:+ m := by
  simp [EndsIn, Re.AtEnd, or_and_right, exists_or]

theorem EndsIn.unique {m v v' : PyStr} (h : EndsIn m v) (h' : EndsIn m v') : v = v' := by
  obtain ⟨hv, rest, hend, hsuffix⟩ := endsIn_iff.mp h
  obtain ⟨hv', rest', hend', hsuffix'⟩ := endsIn_iff.mp h'
  have hdash : ∀ {v rest : PyStr}, Version v → Re.AtEnd rest → '-' ∉ v ++ rest := by
    intro v rest hv hend
    rw [List.mem_append, not_or]
    refine ⟨hv.dash_not_mem, ?_⟩
    rcases hend with rfl | rfl <;> decide
  -- both start after the last dash, and what is left differs by a newline at most
  have heq := eq_of_dash_suffix (hdash hv hend) (hdash hv' hend') hsuffix hsuffix'
  rw [← chopNewline_append hv.newline_not_mem hend, heq,
    chopNewline_append hv'.newline_not_mem hend']

theorem searchVersion_eq_some {m u : PyStr} :
    searchVersion m = some u ↔ ∃ v, EndsIn m v ∧ '-' :: v = u := by
  have hfound : ∀ {u}, searchVersion m = some u → ∃ v, EndsIn m v ∧ '-' :: v = u := by
    intro u h
    obtain ⟨t, ht, hmatch⟩ := List.exists_of_findSome?_eq_some h
    obtain ⟨v, rest, hv, hend, rfl, rfl⟩ := matchVersion_eq_some.mp hmatch
    exact ⟨v, endsIn_iff.mpr ⟨hv, rest, hend, (List.mem_tails _ _).mp ht⟩, rfl⟩
  refine ⟨hfound, ?_⟩
  rintro ⟨v, hv, rfl⟩
  cases hsearch : searchVersion m with
  | none =>
      obtain ⟨hversion, rest, hend, hsuffix⟩ := endsIn_iff.mp hv
      have hnone := List.findSome?_eq_none_iff.mp hsearch _ ((List.mem_tails _ _).mpr hsuffix)
      rw [matchVersion_eq_some.mpr ⟨v, rest, hversion, hend, rfl, rfl⟩] at hnone
      simp at hnone
  | some u =>
      obtain ⟨v', hv', rfl⟩ := hfound hsearch
      rw [hv.unique hv']

theorem newMachine_of_endsIn {m v : PyStr} (h : EndsIn m v) : newMachine m = py "pc-q35-" ++ v := by
  rw [newMachine, searchVersion_eq_some.mpr ⟨v, h, rfl⟩]
  rfl

theorem newMachine_of_not_endsIn {m : PyStr} (h : ¬ ∃ v, EndsIn m v) : newMachine m = py "q35" := by
  have hnone : searchVersion m = none := by
    rw [Option.eq_none_iff_forall_ne_some]
    intro u hu
    obtain ⟨v, hv, -⟩ := searchVersion_eq_some.mp hu
    exact h ⟨v, hv⟩
  rw [newMachine, hnone]

/-- The new machine type has the version of the old one. -/
theorem endsIn_newMachine {m v : PyStr} : EndsIn (newMachine m) v ↔ EndsIn m v := by
  by_cases h : ∃ v, EndsIn m v
  · obtain ⟨v₀, hv₀⟩ := h
    have hnew : EndsIn (newMachine m) v₀ := by
      rw [newMachine_of_endsIn hv₀]
      exact ⟨hv₀.1, Or.inl ⟨py "pc-q35", rfl⟩⟩
    constructor
    · intro hv
      rwa [hv.unique hnew]
    · intro hv
      rwa [hv.unique hv₀]
  · refine iff_of_false ?_ fun hv => h ⟨v, hv⟩
    -- the plain name has no dash
    rw [newMachine_of_not_endsIn h]
    rintro ⟨-, hsuffix | hsuffix⟩
    · exact absurd (hsuffix.subset List.mem_cons_self) (by decide)
    · exact absurd (hsuffix.subset List.mem_cons_self) (by decide)

/-! ### The mutator -/

/-- The machine type of a domain, if it has a `type` element. -/
def machine (root : Element) : Option PyStr :=
  (root.findPath (py "os") (py "type")).map fun typeElem =>
    (typeElem.get (py "machine")).getD []

theorem ensureMachineType_of_q35 {root : Element} {m : PyStr} (hm : machine root = some m)
    (hq35 : contains (py "q35") m = true) : ensureMachineType root = (root, false) := by
  obtain ⟨typeElem, hfind, rfl⟩ := Option.map_eq_some_iff.mp hm
  simp only [ensureMachineType, hfind, hq35, if_true]

theorem machine_ensureMachineType {root : Element} {m : PyStr} (hm : machine root = some m)
    (hq35 : contains (py "q35") m = false) :
    machine (ensureMachineType root).1 = some (newMachine m) := by
  obtain ⟨typeElem, hfind, rfl⟩ := Option.map_eq_some_iff.mp hm
  have hne : newMachine ((typeElem.get (py "machine")).getD []) ≠
      (typeElem.get (py "machine")).getD [] := by
    intro heq
    rw [contains, decide_eq_false_iff_not, ← heq] at hq35
    exact hq35 (q35_in_newMachine _)
  simp only [ensureMachineType, hfind, hq35, Bool.false_eq_true, if_false, if_pos hne]
  rw [machine, Element.findPath_updatePath hfind rfl, Option.map_some, Element.get_set_self,
    Option.getD_some]

/-- A machine type without `q35` becomes the q35 machine of the version it ends in, or of
none, where the version is the group the regular expression finds. The result is a q35
machine with the same version, and is left alone from then on. -/
theorem ensureMachineType_version {root : Element} {m : PyStr} (hm : machine root = some m) :
    (∀ s, searchVersion s = (versionPattern.search s).bind (·.group 1)) ∧
      (contains (py "q35") m = true → ensureMachineType root = (root, false)) ∧
      (contains (py "q35") m = false →
        (∀ v, EndsIn m v → machine (ensureMachineType root).1 = some (py "pc-q35-" ++ v)) ∧
          ((¬ ∃ v, EndsIn m v) → machine (ensureMachineType root).1 = some (py "q35"))) ∧
      (∀ v v', EndsIn m v → EndsIn m v' → v = v') ∧
      (∃ m', machine (ensureMachineType root).1 = some m' ∧ contains (py "q35") m' = true ∧
        ∀ v, EndsIn m' v ↔ EndsIn m v) ∧
      ensureMachineType (ensureMachineType root).1 = ((ensureMachineType root).1, false) := by
  have hresult : ∃ m', machine (ensureMachineType root).1 = some m' ∧
      contains (py "q35") m' = true ∧ ∀ v, EndsIn m' v ↔ EndsIn m v := by
    cases hq35 : contains (py "q35") m with
    | true =>
        rw [ensureMachineType_of_q35 hm hq35]
        exact ⟨m, hm, hq35, fun _ => Iff.rfl⟩
    | false =>
        refine ⟨newMachine m, machine_ensureMachineType hm hq35, ?_, fun _ => endsIn_newMachine⟩
        rw [contains, decide_eq_true_iff]
        exact q35_in_newMachine m
  refine ⟨searchVersion_eq, ensureMachineType_of_q35 hm, fun hq35 => ⟨fun v hv => ?_, fun h => ?_⟩,
    fun v v' => EndsIn.unique, hresult, ?_⟩
  · rw [machine_ensureMachineType hm hq35, newMachine_of_endsIn hv]
  · rw [machine_ensureMachineType hm hq35, newMachine_of_not_endsIn h]
  · obtain ⟨m', hm', hq35, -⟩ := hresult
    exact ensureMachineType_of_q35 hm' hq35

/-- A domain with a machine type and nothing else. -/
def machineDomain (m : PyStr) : Element :=
  (Element.new (py "domain")).append ((Element.new (py "os")).append
    ((Element.new (py "type")).set (py "machine") m))

theorem ensureMachineType_version_newline :
    machine (ensureMachineType (machineDomain (py "pc-i440fx-10.1\n"))).1 =
      some (py "pc-q35-10.1") := by
  have hm : machine (machineDomain (py "pc-i440fx-10.1\n")) = some (py "pc-i440fx-10.1\n") := rfl
  obtain ⟨-, -, hrewrite, -⟩ := ensureMachineType_version hm
  refine (hrewrite (by decide)).1 (py "10.1") ⟨⟨[py "10", py "1"], by decide, ?_, rfl⟩, by decide⟩
  have hzero : isDecimal '0' = true := by decide
  have hone : isDecimal '1' = true := by decide
  rw [List.forall_mem_cons, List.forall_mem_singleton]
  refine ⟨⟨by decide, ?_⟩, ⟨by decide, List.forall_mem_singleton.mpr hone⟩⟩
  exact List.forall_mem_cons.mpr ⟨hone, List.forall_mem_singleton.mpr hzero⟩

end DraEnv.Dramachine
