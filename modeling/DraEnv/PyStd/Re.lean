import DraEnv.PyStd.Str

/-!
Regular expressions as Python's `re` matches them.

A pattern is matched by backtracking: `run` gives the ways to match it
from a position in the order in which they are tried, and `search` takes
the first way at the leftmost position where there is one. Which texts a
pattern has at all is a question without order (`Matches`), and the two
agree: every way that is tried is a text of the pattern (`run_sound`), and
every text is tried at some point (`run_complete`).
-/

namespace DraEnv.PyStd

inductive Re where
  /-- One character of a class. -/
  | set (p : Char → Bool)
  | seq (r s : Re)
  /-- `r+`, greedy -/
  | plus (r : Re)
  /-- `(r)`, under its number -/
  | group (n : Nat) (r : Re)
  /-- `$`, without `re.MULTILINE` -/
  | atEnd

namespace Re

/-- The end of the string, or the newline it ends in. -/
def AtEnd (rest : PyStr) : Prop := rest = [] ∨ rest = ['\n']

instance (rest : PyStr) : Decidable (AtEnd rest) := inferInstanceAs (Decidable (_ ∨ _))

/-- A match under way: the string that is left, and the groups so far, last first. -/
structure State where
  rest : PyStr
  groups : List (Nat × PyStr)

def State.group (st : State) (n : Nat) : Option PyStr := st.groups.lookup n

/-- The text between two states of a match. -/
def consumed (st st' : State) : PyStr := st.rest.take (st.rest.length - st'.rest.length)

/-- Up to `n` rounds of a loop, more of them first. A round that consumes nothing is the
last. -/
def rounds (body : State → List State) : Nat → State → List State
  | 0, _ => []
  | n + 1, st => (body st).flatMap fun st' =>
      (if st'.rest.length < st.rest.length then rounds body n st' else []) ++ [st']

/-- The ways to match, in the order they are tried. -/
def run : Re → State → List State
  | set p, st =>
      match st.rest with
      | [] => []
      | c :: rest => if p c then [{ st with rest }] else []
  | seq r s, st => (run r st).flatMap (run s)
  | plus r, st => rounds (run r) (st.rest.length + 1) st
  | group n r, st =>
      (run r st).map fun st' => { st' with groups := (n, consumed st st') :: st'.groups }
  | atEnd, st => if AtEnd st.rest then [st] else []

/-- `re.search` -/
def search (r : Re) (s : PyStr) : Option State :=
  s.tails.findSome? fun rest => (r.run ⟨rest, []⟩).head?

/-- The text is one of the pattern, with the rest of the string behind it. -/
inductive Matches : Re → PyStr → PyStr → Prop
  | set {p : Char → Bool} {c : Char} (rest : PyStr) : p c = true → Matches (set p) [c] rest
  | seq {r s : Re} {w w' rest : PyStr} :
      Matches r w (w' ++ rest) → Matches s w' rest → Matches (seq r s) (w ++ w') rest
  | once {r : Re} {w rest : PyStr} : Matches r w rest → Matches (plus r) w rest
  | again {r : Re} {w w' rest : PyStr} :
      Matches r w (w' ++ rest) → Matches (plus r) w' rest → Matches (plus r) (w ++ w') rest
  | group {n : Nat} {r : Re} {w rest : PyStr} : Matches r w rest → Matches (group n r) w rest
  | atEnd {rest : PyStr} : AtEnd rest → Matches atEnd [] rest

/-! ### Texts -/

theorem matches_set {p : Char → Bool} {w rest : PyStr} :
    Matches (set p) w rest ↔ ∃ c, p c = true ∧ [c] = w := by
  constructor
  · rintro (⟨_, hp⟩ | _)
    exact ⟨_, hp, rfl⟩
  · rintro ⟨c, hp, rfl⟩
    exact .set rest hp

theorem matches_seq {r s : Re} {w rest : PyStr} :
    Matches (seq r s) w rest ↔
      ∃ w₁ w₂, Matches r w₁ (w₂ ++ rest) ∧ Matches s w₂ rest ∧ w₁ ++ w₂ = w := by
  constructor
  · rintro (_ | ⟨hr, hs⟩)
    exact ⟨_, _, hr, hs, rfl⟩
  · rintro ⟨w₁, w₂, hr, hs, rfl⟩
    exact .seq hr hs

theorem matches_group {n : Nat} {r : Re} {w rest : PyStr} :
    Matches (group n r) w rest ↔ Matches r w rest := by
  constructor
  · rintro (_ | _ | _ | _ | h)
    exact h
  · exact .group

/-- A loop over a pattern whose texts are the images of some values has the images of
the lists of such values. -/
theorem matches_plus {α : Type} {r : Re} {P : α → Prop} {f : α → PyStr}
    (hr : ∀ w rest, Matches r w rest ↔ ∃ a, P a ∧ f a = w) {w rest : PyStr} :
    Matches (plus r) w rest ↔ ∃ as ≠ [], (∀ a ∈ as, P a) ∧ as.flatMap f = w := by
  constructor
  · intro h
    generalize hloop : plus r = loop at h
    induction h with
    | once hmatch =>
        cases hloop
        obtain ⟨a, ha, rfl⟩ := (hr _ _).mp hmatch
        exact ⟨[a], by simp, by simpa using ha, by simp⟩
    | again hmatch _ _ ih =>
        cases hloop
        obtain ⟨a, ha, rfl⟩ := (hr _ _).mp hmatch
        obtain ⟨as, -, has, rfl⟩ := ih rfl
        exact ⟨a :: as, by simp, List.forall_mem_cons.mpr ⟨ha, has⟩, List.flatMap_cons⟩
    | _ => cases hloop
  · rintro ⟨as, hne, has, rfl⟩
    induction as with
    | nil => exact absurd rfl hne
    | cons a as ih =>
        rw [List.forall_mem_cons] at has
        cases as with
        | nil => exact .once ((hr _ _).mpr ⟨a, has.1, by simp⟩)
        | cons b as =>
            rw [List.flatMap_cons]
            exact .again ((hr _ _).mpr ⟨a, has.1, rfl⟩) (ih (by simp) has.2)

/-! ### Loops -/

section

variable {body : State → List State} {st st' : State} {n m : Nat}

theorem mem_rounds_succ :
    st' ∈ rounds body (n + 1) st ↔
      ∃ st₁ ∈ body st,
        (st₁.rest.length < st.rest.length ∧ st' ∈ rounds body n st₁) ∨ st' = st₁ := by
  simp only [rounds, List.mem_flatMap, List.mem_append, List.mem_singleton]
  refine exists_congr fun st₁ => and_congr_right fun _ => or_congr_left ?_
  split
  next h => simp [h]
  next h => simp [h]

theorem rounds_mono (hle : n ≤ m) (h : st' ∈ rounds body n st) : st' ∈ rounds body m st := by
  induction n generalizing st m with
  | zero => simp [rounds] at h
  | succ n ih =>
      obtain ⟨m, rfl⟩ : ∃ k, m = k + 1 := ⟨m - 1, by omega⟩
      rw [mem_rounds_succ] at h ⊢
      obtain ⟨st₁, hst₁, ⟨hlt, hrest⟩ | heq⟩ := h
      · exact ⟨st₁, hst₁, Or.inl ⟨hlt, ih (by omega) hrest⟩⟩
      · exact ⟨st₁, hst₁, Or.inr heq⟩

theorem rounds_sound {r : Re}
    (hbody : ∀ st st', st' ∈ body st → ∃ w, st.rest = w ++ st'.rest ∧ Matches r w st'.rest)
    (h : st' ∈ rounds body n st) : ∃ w, st.rest = w ++ st'.rest ∧ Matches (plus r) w st'.rest := by
  induction n generalizing st with
  | zero => simp [rounds] at h
  | succ n ih =>
      obtain ⟨st₁, hst₁, ⟨-, hrest⟩ | rfl⟩ := mem_rounds_succ.mp h
      · obtain ⟨w, hw, hmatch⟩ := hbody st st₁ hst₁
        obtain ⟨w', hw', hmatches⟩ := ih hrest
        rw [hw'] at hmatch
        exact ⟨w ++ w', by rw [hw, hw', List.append_assoc], .again hmatch hmatches⟩
      · obtain ⟨w, hw, hmatch⟩ := hbody st st' hst₁
        exact ⟨w, hw, .once hmatch⟩

end

/-! ### Ways and texts -/

theorem run_sound {r : Re} {st st' : State} (h : st' ∈ run r st) :
    ∃ w, st.rest = w ++ st'.rest ∧ Matches r w st'.rest := by
  induction r generalizing st st' with
  | set p =>
      rw [run] at h
      split at h
      next => simp at h
      next c rest hrest =>
        split at h
        next hp =>
          rw [List.mem_singleton.mp h]
          exact ⟨[c], hrest, .set rest hp⟩
        next => simp at h
  | seq r s ihr ihs =>
      obtain ⟨st₁, hst₁, hst'⟩ := List.mem_flatMap.mp h
      obtain ⟨w, hw, hmatch⟩ := ihr hst₁
      obtain ⟨w', hw', hmatch'⟩ := ihs hst'
      rw [hw'] at hmatch
      exact ⟨w ++ w', by rw [hw, hw', List.append_assoc], .seq hmatch hmatch'⟩
  | plus r ih => exact rounds_sound (fun _ _ => ih) h
  | group n r ih =>
      obtain ⟨st₁, hst₁, rfl⟩ := List.mem_map.mp h
      obtain ⟨w, hw, hmatch⟩ := ih hst₁
      exact ⟨w, hw, .group hmatch⟩
  | atEnd =>
      rw [run] at h
      split at h
      next hend =>
        rw [List.mem_singleton.mp h]
        exact ⟨[], rfl, .atEnd hend⟩
      next => simp at h

theorem run_complete {r : Re} {w rest : PyStr} (h : Matches r w rest) {st : State}
    (hst : st.rest = w ++ rest) : ∃ st' ∈ run r st, st'.rest = rest := by
  induction h generalizing st with
  | set rest hp =>
      rw [List.singleton_append] at hst
      exact ⟨{ st with rest }, by simp [run, hst, hp], rfl⟩
  | seq _ _ ihr ihs =>
      rw [List.append_assoc] at hst
      obtain ⟨st₁, hst₁, hrest₁⟩ := ihr hst
      obtain ⟨st', hst', hrest⟩ := ihs hrest₁
      exact ⟨st', List.mem_flatMap.mpr ⟨st₁, hst₁, hst'⟩, hrest⟩
  | once _ ih =>
      obtain ⟨st', hst', hrest⟩ := ih hst
      exact ⟨st', mem_rounds_succ.mpr ⟨st', hst', Or.inr rfl⟩, hrest⟩
  | @again r w w' rest _ _ ih ihplus =>
      rw [List.append_assoc] at hst
      by_cases hw : w = []
      · -- a round that consumes nothing ends the loop, and may as well be left out
        rw [hw, List.nil_append] at hst
        exact ihplus hst
      · obtain ⟨st₁, hst₁, hrest₁⟩ := ih hst
        obtain ⟨st', hst', hrest⟩ := ihplus hrest₁
        have hlt : st₁.rest.length < st.rest.length := by
          have hpos := List.length_pos_iff.mpr hw
          simp only [hrest₁, hst, List.length_append]
          omega
        refine ⟨st', mem_rounds_succ.mpr ⟨st₁, hst₁, Or.inl ⟨hlt, ?_⟩⟩, hrest⟩
        exact rounds_mono hlt hst'
  | group _ ih =>
      obtain ⟨st', hst', hrest⟩ := ih hst
      exact ⟨_, List.mem_map_of_mem hst', hrest⟩
  | atEnd hend =>
      rw [List.nil_append] at hst
      rw [← hst] at hend
      exact ⟨st, by simp [run, hend], hst⟩

theorem consumed_eq {st st' : State} {w : PyStr} (h : st.rest = w ++ st'.rest) :
    consumed st st' = w := by
  rw [consumed, h, List.length_append, Nat.add_sub_cancel, List.take_left]

/-! ### A group up to the end -/

section

variable {n : Nat} {r : Re} {st st' : State}

/-- A way to match a group that reaches to the end gives the group its text. -/
theorem anchored_sound (h : st' ∈ run (seq (group n r) atEnd) st) :
    ∃ w, st.rest = w ++ st'.rest ∧ Matches r w st'.rest ∧ AtEnd st'.rest ∧
      st'.group n = some w := by
  obtain ⟨st₁, hst₁, hst'⟩ := List.mem_flatMap.mp h
  obtain ⟨st₂, hst₂, rfl⟩ := List.mem_map.mp hst₁
  obtain ⟨w, hw, hmatch⟩ := run_sound hst₂
  rw [run] at hst'
  split at hst'
  next hend =>
    rw [List.mem_singleton.mp hst']
    refine ⟨w, hw, hmatch, hend, ?_⟩
    rw [consumed_eq hw, State.group, List.lookup_cons_self]
  next => simp at hst'

theorem anchored_complete {w rest : PyStr} (hmatch : Matches r w rest) (hend : AtEnd rest) :
    run (seq (group n r) atEnd) ⟨w ++ rest, []⟩ ≠ [] := by
  have hwhole : Matches (seq (group n r) atEnd) (w ++ []) rest := .seq (.group hmatch) (.atEnd hend)
  rw [List.append_nil] at hwhole
  obtain ⟨st', hst', -⟩ := @run_complete _ _ _ hwhole ⟨w ++ rest, []⟩ rfl
  exact List.ne_nil_of_mem hst'

end

/-- The group of the match found is the first one found at the positions in turn, where
every match has the group. -/
theorem search_group {r : Re} {n : Nat}
    (h : ∀ st st', st' ∈ run r st → (st'.group n).isSome = true) (s : PyStr) :
    (search r s).bind (·.group n) =
      s.tails.findSome? fun rest => (r.run ⟨rest, []⟩).head?.bind (·.group n) := by
  rw [search]
  induction s.tails with
  | nil => rfl
  | cons rest tails ih =>
      rw [List.findSome?_cons, List.findSome?_cons]
      cases hfirst : (r.run ⟨rest, []⟩).head? with
      | none => exact ih
      | some st' =>
          obtain ⟨w, hw⟩ := Option.isSome_iff_exists.mp (h _ st' (List.mem_of_head? hfirst))
          simp [hw]

end Re

end DraEnv.PyStd
