import DraEnv.Foundation.Transition

/-!
Many copies of one system side by side.

The copies share nothing but the process they live in: a step is a step of
one of them, and it needs all the others to be live. Hence a step of the
whole is a run of each copy (`InterleavedStep.runs`), and any choice of
runs, one for each copy, can be put together as long as at most one of
them ends dead (`interleaved_of_runs`). So no copy sees or delays another.
-/

namespace DraEnv.Foundation

namespace System

variable {σ : Type} (M : System σ) (live : σ → Prop)

/-- One of the copies takes a step. -/
inductive InterleavedStep : List σ → List σ → Prop
  | copy {before after : List σ} {s s' : σ} (hbefore : ∀ t ∈ before, live t)
      (hafter : ∀ t ∈ after, live t) (hstep : M.step s s') :
      InterleavedStep (before ++ s :: after) (before ++ s' :: after)

def Interleaved : List σ → List σ → Prop := Relation.ReflTransGen (M.InterleavedStep live)

variable {M live}

theorem Run.forall₂_refl (l : List σ) : List.Forall₂ M.Run l l :=
  List.forall₂_same.mpr fun _ _ => Relation.ReflTransGen.refl

theorem Run.forall₂_trans {l₁ l₂ l₃ : List σ} (h₁ : List.Forall₂ M.Run l₁ l₂)
    (h₂ : List.Forall₂ M.Run l₂ l₃) : List.Forall₂ M.Run l₁ l₃ := by
  induction h₁ generalizing l₃ with
  | nil => exact h₂
  | cons hhead _ ih =>
      cases h₂ with
      | cons hhead' htail' => exact .cons (Relation.ReflTransGen.trans hhead hhead') (ih htail')

/-- The runs of a concatenation, part by part. -/
theorem Run.forall₂_split {l₁ l₂ l : List σ} (h : List.Forall₂ M.Run (l₁ ++ l₂) l) :
    ∃ l₁' l₂', l = l₁' ++ l₂' ∧ List.Forall₂ M.Run l₁ l₁' ∧ List.Forall₂ M.Run l₂ l₂' := by
  have htake := List.forall₂_take l₁.length h
  have hdrop := List.forall₂_drop l₁.length h
  rw [List.take_left] at htake
  rw [List.drop_left] at hdrop
  exact ⟨_, _, (List.take_append_drop l₁.length l).symm, htake, hdrop⟩

theorem InterleavedStep.runs {l l' : List σ} (h : M.InterleavedStep live l l') :
    List.Forall₂ M.Run l l' := by
  obtain ⟨-, -, hstep⟩ := h
  exact List.rel_append (Run.forall₂_refl _)
    (.cons (Relation.ReflTransGen.single hstep) (Run.forall₂_refl _))

/-- At most one of the copies is dead. -/
def OneDead (live : σ → Prop) (l : List σ) : Prop := l.Pairwise fun s t => live s ∨ live t

theorem oneDead_of_live {l : List σ} (h : ∀ s ∈ l, live s) : OneDead live l :=
  List.pairwise_of_forall_mem_list fun s hs _ _ => Or.inl (h s hs)

/-- All but one, wherever it stands. -/
theorem oneDead_middle {before after : List σ} {s : σ} (hbefore : ∀ t ∈ before, live t)
    (hafter : ∀ t ∈ after, live t) : OneDead live (before ++ s :: after) := by
  refine List.pairwise_append.mpr ⟨oneDead_of_live hbefore, ?_, ?_⟩
  · exact List.pairwise_cons.mpr
      ⟨fun t ht => Or.inr (hafter t ht), oneDead_of_live hafter⟩
  · exact fun t ht _ _ => Or.inl (hbefore t ht)

theorem OneDead.cases {l : List σ} (h : OneDead live l) :
    (∀ s ∈ l, live s) ∨ ∃ before s after, l = before ++ s :: after ∧
      (∀ t ∈ before, live t) ∧ ∀ t ∈ after, live t := by
  by_cases hall : ∀ s ∈ l, live s
  · exact Or.inl hall
  push Not at hall
  obtain ⟨s, hs, hdead⟩ := hall
  obtain ⟨before, after, rfl⟩ := List.append_of_mem hs
  obtain ⟨-, hrest, hcross⟩ := List.pairwise_append.mp h
  refine Or.inr ⟨before, s, after, rfl, fun t ht => ?_, fun t ht => ?_⟩
  · exact (hcross t ht s List.mem_cons_self).resolve_right hdead
  · exact ((List.pairwise_cons.mp hrest).1 t ht).resolve_left hdead

theorem InterleavedStep.oneDead {l l' : List σ} (h : M.InterleavedStep live l l') :
    OneDead live l' := by
  obtain ⟨hbefore, hafter, -⟩ := h
  exact oneDead_middle hbefore hafter

/-- While the others stand still one copy may run as far as it likes. -/
theorem Run.interleaved {s s' : σ} (h : M.Run s s') {before after : List σ}
    (hbefore : ∀ t ∈ before, live t) (hafter : ∀ t ∈ after, live t) :
    M.Interleaved live (before ++ s :: after) (before ++ s' :: after) := by
  induction h with
  | refl => exact Relation.ReflTransGen.refl
  | tail _ hstep ih => exact ih.tail (.copy hbefore hafter hstep)

/-- The copies run one after the other, those of `before` having run already. -/
theorem interleaved_of_live (before : List σ) {l l' : List σ} (hruns : List.Forall₂ M.Run l l')
    (hbefore : ∀ t ∈ before, live t) (hl : ∀ t ∈ l, live t) (hl' : ∀ t ∈ l', live t) :
    M.Interleaved live (before ++ l) (before ++ l') := by
  induction hruns generalizing before with
  | nil => exact Relation.ReflTransGen.refl
  | @cons s s' rest rest' hrun _ ih =>
      have hrest : ∀ t ∈ rest, live t := fun t ht => hl t (List.mem_cons_of_mem _ ht)
      have hs' : ∀ t ∈ before ++ [s'], live t := by
        intro t ht
        obtain ht | ht := List.mem_append.mp ht
        · exact hbefore t ht
        · exact hl' t (List.mem_singleton.mp ht ▸ List.mem_cons_self)
      have hothers := ih (before ++ [s']) hs' hrest fun t ht => hl' t (List.mem_cons_of_mem _ ht)
      rw [List.append_assoc, List.append_assoc] at hothers
      exact (hrun.interleaved hbefore hrest).trans hothers

/-- Any choice of runs can be interleaved; the one that ends dead comes last. -/
theorem interleaved_of_runs {l l' : List σ} (hruns : List.Forall₂ M.Run l l')
    (hl : ∀ t ∈ l, live t) (hl' : OneDead live l') : M.Interleaved live l l' := by
  obtain hlive | ⟨before', s', after', rfl, hbefore', hafter'⟩ := hl'.cases
  · exact interleaved_of_live [] hruns (by simp) hl hlive
  have hbefore := List.forall₂_take_append l before' (s' :: after') hruns
  have hrest := List.forall₂_drop_append l before' (s' :: after') hruns
  rw [← List.take_append_drop before'.length l] at hl ⊢
  generalize l.take before'.length = before at *
  generalize l.drop before'.length = rest at *
  cases hrest with
  | @cons s _ after _ hrun hafter =>
      have hs : live s := hl s (by simp)
      have hothers : M.Interleaved live (before ++ s :: after) (before' ++ s :: after') := by
        refine interleaved_of_live [] ?_ (by simp) hl ?_
        · exact List.rel_append hbefore (.cons Relation.ReflTransGen.refl hafter)
        · intro t ht
          obtain ht | rfl | ht := by simpa using ht
          · exact hbefore' t ht
          · exact hs
          · exact hafter' t ht
      exact hothers.trans (hrun.interleaved hbefore' hafter')

end System

end DraEnv.Foundation
