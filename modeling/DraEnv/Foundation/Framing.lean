import Mathlib

/-!
Self-delimiting streams.

A framing is a set of nonempty words none of which is a proper prefix of
another. That one condition makes the frames at the front of a stream
deterministic: two sequences of frames that both start the stream agree
as far as the shorter one goes (`Leads.comparable`), and a longest
sequence is one after which no further frame starts (`longest_iff`). A
loop that takes one frame off the stream at a time is therefore described
by induction on that sequence.
-/

namespace DraEnv.Foundation

/-- A prefix-free set of nonempty words over `β`. -/
structure Framing (β : Type) where
  IsFrame : List β → Prop
  ne_nil : ∀ {f}, IsFrame f → f ≠ []
  prefix_free : ∀ {f g}, IsFrame f → IsFrame g → f <+: g → f = g

namespace Framing

variable {β : Type} (F : Framing β)

/-- `frs` is a sequence of frames at the front of `stream`. -/
def Leads (frs : List (List β)) (stream : List β) : Prop :=
  (∀ f ∈ frs, F.IsFrame f) ∧ frs.flatten <+: stream

/-- `frs` is a sequence of frames at the front of `stream` and no such sequence
is longer. -/
def Longest (frs : List (List β)) (stream : List β) : Prop :=
  F.Leads frs stream ∧ ∀ frs', F.Leads frs' stream → frs'.length ≤ frs.length

variable {F}

/-- Two frames at the front of one stream are the same frame. -/
theorem eq_of_prefix {f g s : List β} (hf : F.IsFrame f) (hg : F.IsFrame g)
    (hfs : f <+: s) (hgs : g <+: s) : f = g := by
  rcases List.prefix_or_prefix_of_prefix hfs hgs with h | h
  · exact F.prefix_free hf hg h
  · exact (F.prefix_free hg hf h).symm

theorem leads_nil (s : List β) : F.Leads [] s :=
  ⟨by simp, List.nil_prefix⟩

theorem leads_cons {f : List β} {frs : List (List β)} {s : List β} :
    F.Leads (f :: frs) (f ++ s) ↔ F.IsFrame f ∧ F.Leads frs s := by
  simp only [Leads, List.forall_mem_cons, List.flatten_cons, List.prefix_append_right_inj]
  tauto

/-- A sequence of frames stays at the front of a stream that grows at its end. -/
theorem Leads.mono {frs : List (List β)} {s s' : List β} (h : F.Leads frs s)
    (hs : s <+: s') : F.Leads frs s' :=
  ⟨h.1, h.2.trans hs⟩

/-- One more frame behind a sequence that leads. -/
theorem Leads.snoc {frs : List (List β)} {f rest : List β} (h : ∀ g ∈ frs, F.IsFrame g)
    (hf : F.IsFrame f) : F.Leads (frs ++ [f]) (frs.flatten ++ f ++ rest) := by
  refine ⟨?_, ?_⟩
  · intro g hg
    rcases List.mem_append.mp hg with hg | hg
    · exact h g hg
    · rw [List.mem_singleton.mp hg]
      exact hf
  · simp

/-- Two sequences of frames at the front of one stream agree as far as the
shorter one goes. -/
theorem Leads.comparable {frs frs' : List (List β)} {s : List β}
    (h : F.Leads frs s) (h' : F.Leads frs' s) : frs <+: frs' ∨ frs' <+: frs := by
  induction frs generalizing frs' s with
  | nil => exact Or.inl List.nil_prefix
  | cons f frs ih =>
      cases frs' with
      | nil => exact Or.inr List.nil_prefix
      | cons f' frs' =>
          have hfs : f <+: s := (List.prefix_append _ _).trans h.2
          have hfs' : f' <+: s := (List.prefix_append _ _).trans h'.2
          obtain rfl := eq_of_prefix (h.1 f (by simp)) (h'.1 f' (by simp)) hfs hfs'
          obtain ⟨rest, rfl⟩ := hfs
          rw [leads_cons] at h h'
          simpa only [List.cons_prefix_cons, true_and] using ih h.2 h'.2

/-- The longest sequence is the one after which no further frame starts. -/
theorem longest_iff {frs : List (List β)} {s : List β} :
    F.Longest frs s ↔ (∀ f ∈ frs, F.IsFrame f) ∧
      ∃ rest, s = frs.flatten ++ rest ∧ ∀ f, F.IsFrame f → ¬ f <+: rest := by
  constructor
  · rintro ⟨⟨hframes, rest, rfl⟩, hmax⟩
    refine ⟨hframes, rest, rfl, ?_⟩
    rintro f hf ⟨rest', rfl⟩
    have hlonger := hmax (frs ++ [f]) (by simpa using Leads.snoc hframes hf)
    rw [List.length_append, List.length_singleton] at hlonger
    omega
  · rintro ⟨hframes, rest, rfl, hend⟩
    have hleads : F.Leads frs (frs.flatten ++ rest) := ⟨hframes, List.prefix_append _ _⟩
    refine ⟨hleads, fun frs' h' => ?_⟩
    rcases h'.comparable hleads with hp | ⟨more, rfl⟩
    · exact hp.length_le
    · cases more with
      | nil => simp
      | cons f more =>
          have hf : F.IsFrame f := h'.1 f (by simp)
          have hfr : f ++ more.flatten <+: rest := by
            simpa [List.prefix_append_right_inj] using h'.2
          exact absurd ((List.prefix_append _ _).trans hfr) (hend f hf)

end Framing

end DraEnv.Foundation
