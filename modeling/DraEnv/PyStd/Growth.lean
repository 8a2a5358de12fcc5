import DraEnv.PyStd.ElementTree

/-!
How an element tree may grow.

A program that only sets attributes and appends children leaves every
element at the position it had. `Grown` says this of one element: outside
a list of keys its attributes are those of before, each child is where it
was, and what is new stands behind them. A child may itself have grown,
but only where a slot selects it. The relation is closed under doing one
thing after another, so a description of a whole program is assembled
from those of its steps, and every description says that nothing was
lost.
-/

namespace DraEnv.PyStd

open DraEnv.Foundation

/-- A place below an element: the first child that is selected, and what may
become of it. -/
structure Slot where
  selects : Element → Bool
  changes : Element → Element → Prop

/-- The attributes under `keys` may differ, the children in the slots have changed
and `added` stands behind the children. -/
structure Grown (keys : List PyStr) (slots : List Slot) (added : List Element)
    (e e' : Element) : Prop where
  tag : e'.tag = e.tag
  text : e'.text = e.text
  tail : e'.tail = e.tail
  get : ∀ key, key ∉ keys → e'.get key = e.get key
  children : ∀ (i : Nat) (child : Element), e.children[i]? = some child →
    ∃ child', e'.children[i]? = some child' ∧
      (∀ slot ∈ slots, e.children.findIdx? slot.selects = some i → slot.changes child child') ∧
      ((∀ slot ∈ slots, e.children.findIdx? slot.selects ≠ some i) → child' = child)
  added : e'.children.drop e.children.length = added

variable {keys keys₁ keys₂ : List PyStr} {slots slots₁ slots₂ : List Slot}
  {added added₁ added₂ : List Element} {e e₁ e₂ e' : Element}

/-! ### Steps -/

/-- Nothing has happened, which every slot must allow. -/
theorem Grown.refl (keys : List PyStr) (e : Element)
    (hslots : ∀ slot ∈ slots, ∀ child, slot.changes child child) : Grown keys slots [] e e where
  tag := rfl
  text := rfl
  tail := rfl
  get _ _ := rfl
  children _ child hchild := ⟨child, hchild, fun slot hslot _ => hslots slot hslot child,
    fun _ => rfl⟩
  added := List.drop_length

theorem grown_set (e : Element) (key value : PyStr) : Grown [key] [] [] e (e.set key value) where
  tag := rfl
  text := rfl
  tail := rfl
  get key' hkey' := e.get_set_of_ne value (fun heq => hkey' (List.mem_singleton.mpr heq))
  children _ child hchild := ⟨child, hchild, by simp, fun _ => rfl⟩
  added := List.drop_length

theorem grown_append (e child : Element) : Grown [] [] [child] e (e.append child) where
  tag := rfl
  text := rfl
  tail := rfl
  get _ _ := rfl
  children i child' hchild' := by
    refine ⟨child', ?_, by simp, fun _ => rfl⟩
    obtain ⟨hi, -⟩ := List.getElem?_eq_some_iff.mp hchild'
    rw [Element.append, List.getElem?_append_left hi, hchild']
  added := List.drop_left

theorem grown_update {f : Element → Element} {changes : Element → Element → Prop}
    {selects : Element → Bool} {e : Element}
    (hf : ∀ child, e.children.find? selects = some child → changes child (f child)) :
    Grown [] [⟨selects, changes⟩] [] e
      { e with children := updateFirst selects f e.children } where
  tag := rfl
  text := rfl
  tail := rfl
  get _ _ := rfl
  children i child hchild := by
    simp only [List.mem_singleton, forall_eq, getElem?_updateFirst, hchild, Option.map_some]
    by_cases hfirst : e.children.findIdx? selects = some i
    · have hfind : e.children.find? selects = some child := by
        rw [List.find?_eq_bind_findIdx?_getElem?, hfirst, Option.bind_some, hchild]
      exact ⟨f child, by rw [if_pos hfirst], fun _ => hf child hfind,
        fun hnot => absurd hfirst hnot⟩
    · exact ⟨child, by rw [if_neg hfirst], fun h => absurd h hfirst, fun _ => rfl⟩
  added := List.drop_eq_nil_of_le (length_updateFirst e.children).le

/-- A slot that selects no child may be named as well. -/
theorem Grown.idle (h : Grown keys slots added e e') {slot : Slot}
    (hnone : e.children.findIdx? slot.selects = none) : Grown keys (slot :: slots) added e e' where
  tag := h.tag
  text := h.text
  tail := h.tail
  get := h.get
  children i child hchild := by
    obtain ⟨child', hchild', hchanges, hsame⟩ := h.children i child hchild
    refine ⟨child', hchild', fun s hs hfirst => ?_, fun hother => ?_⟩
    · rcases List.mem_cons.mp hs with rfl | hs
      · rw [hnone] at hfirst
        simp at hfirst
      · exact hchanges s hs hfirst
    · exact hsame fun s hs => hother s (List.mem_cons_of_mem _ hs)
  added := h.added

/-! ### One after another -/

theorem Grown.length_le (h : Grown keys slots added e e') :
    e.children.length ≤ e'.children.length := by
  by_contra hlt
  rw [not_le] at hlt
  obtain ⟨child', hchild', -⟩ := h.children _ _ (List.getElem?_eq_getElem hlt)
  rw [List.getElem?_eq_none le_rfl] at hchild'
  simp at hchild'

/-- Selections that exclude each other do not meet in one child. -/
theorem findIdx?_ne_of_disjoint {p q : Element → Bool}
    (h : ∀ child, p child = true → q child = false) {l : List Element} {i : Nat}
    (hp : l.findIdx? p = some i) : l.findIdx? q ≠ some i := by
  intro hq
  obtain ⟨hi, hpi, -⟩ := List.findIdx?_eq_some_iff_getElem.mp hp
  obtain ⟨_, hqi, -⟩ := List.findIdx?_eq_some_iff_getElem.mp hq
  rw [h _ hpi] at hqi
  simp at hqi

/-- The first step's additions survive a second that has no slot among them. -/
theorem Grown.added_trans (h₁ : Grown keys₁ slots₁ added₁ e e₁)
    (h₂ : Grown keys₂ slots₂ added₂ e₁ e₂)
    (hstable : ∀ slot ∈ slots₂,
      e₁.children.findIdx? slot.selects = e.children.findIdx? slot.selects) :
    e₂.children.drop e.children.length = added₁ ++ added₂ := by
  have hkept : ∀ i, e.children.length ≤ i → i < e₁.children.length →
      e₂.children[i]? = e₁.children[i]? := by
    intro i hle hlt
    obtain ⟨child, hchild, -, hsame⟩ := h₂.children i _ (List.getElem?_eq_getElem hlt)
    rw [hchild, hsame, List.getElem?_eq_getElem hlt]
    intro slot hslot hfirst
    rw [hstable slot hslot] at hfirst
    have := (List.findIdx?_eq_some_iff_getElem.mp hfirst).1
    omega
  have hle₁ := h₁.length_le
  have hle₂ := h₂.length_le
  rw [← h₁.added, ← h₂.added]
  apply List.ext_getElem?
  intro i
  rw [List.getElem?_append, List.length_drop, List.getElem?_drop, List.getElem?_drop,
    List.getElem?_drop]
  split
  · exact hkept _ (by omega) (by omega)
  · congr 1
    omega

theorem Grown.trans (h₁ : Grown keys₁ slots₁ added₁ e e₁) (h₂ : Grown keys₂ slots₂ added₂ e₁ e₂)
    (hstable : ∀ slot ∈ slots₂,
      e₁.children.findIdx? slot.selects = e.children.findIdx? slot.selects)
    (hdisjoint : ∀ slot₁ ∈ slots₁, ∀ slot₂ ∈ slots₂, ∀ i,
      e.children.findIdx? slot₁.selects = some i → e.children.findIdx? slot₂.selects ≠ some i) :
    Grown (keys₁ ++ keys₂) (slots₁ ++ slots₂) (added₁ ++ added₂) e e₂ where
  tag := h₂.tag.trans h₁.tag
  text := h₂.text.trans h₁.text
  tail := h₂.tail.trans h₁.tail
  get key hkey := by
    rw [List.mem_append, not_or] at hkey
    exact (h₂.get key hkey.2).trans (h₁.get key hkey.1)
  children i child hchild := by
    obtain ⟨child₁, hchild₁, hslots₁, hsame₁⟩ := h₁.children i child hchild
    obtain ⟨child₂, hchild₂, hslots₂, hsame₂⟩ := h₂.children i child₁ hchild₁
    refine ⟨child₂, hchild₂, fun slot hslot hfirst => ?_, fun hnone => ?_⟩
    · rcases List.mem_append.mp hslot with hslot | hslot
      · -- The second step leaves alone what the first has changed.
        have hidle : child₂ = child₁ := hsame₂ fun slot₂ hslot₂ => by
          rw [hstable slot₂ hslot₂]
          exact hdisjoint slot hslot slot₂ hslot₂ i hfirst
        rw [hidle]
        exact hslots₁ slot hslot hfirst
      · have hidle : child₁ = child := hsame₁ fun slot₁ hslot₁ hfirst₁ =>
          hdisjoint slot₁ hslot₁ slot hslot i hfirst₁ hfirst
        rw [← hidle]
        exact hslots₂ slot hslot ((hstable slot hslot).trans hfirst)
    · have hidle₁ : child₁ = child := hsame₁ fun slot hslot =>
        hnone slot (List.mem_append_left _ hslot)
      have hidle₂ : child₂ = child₁ := hsame₂ fun slot hslot => by
        rw [hstable slot hslot]
        exact hnone slot (List.mem_append_right _ hslot)
      exact hidle₂.trans hidle₁
  added := h₁.added_trans h₂ hstable

theorem Grown.map_tag (h : Grown keys slots added e e')
    (hslots : ∀ slot ∈ slots, ∀ child child', slot.changes child child' → child'.tag = child.tag) :
    e'.children.map Element.tag = e.children.map Element.tag ++ added.map Element.tag := by
  rw [← List.take_append_drop e.children.length e'.children, h.added, List.map_append,
    List.append_left_inj]
  apply List.ext_getElem?
  intro i
  rw [List.getElem?_map, List.getElem?_map, List.getElem?_take]
  split
  · rename_i hlt
    obtain ⟨child', hchild', hchanges, hsame⟩ := h.children i _ (List.getElem?_eq_getElem hlt)
    rw [hchild', List.getElem?_eq_getElem hlt, Option.map_some, Option.map_some,
      Option.some.injEq]
    by_cases hslot : ∃ slot ∈ slots, e.children.findIdx? slot.selects = some i
    · obtain ⟨slot, hmem, hfirst⟩ := hslot
      exact hslots slot hmem _ _ (hchanges slot hmem hfirst)
    · rw [hsame fun slot hmem hfirst => hslot ⟨slot, hmem, hfirst⟩]
  · rename_i hge
    rw [List.getElem?_eq_none (not_lt.mp hge)]

/-- Where the slots keep tags, a search for a tag that is not added is not
disturbed. -/
theorem Grown.findIdx?_hasTag (h : Grown keys slots added e e') {tag : PyStr}
    (hslots : ∀ slot ∈ slots, ∀ child child', slot.changes child child' → child'.tag = child.tag)
    (hadded : ∀ child ∈ added, child.tag ≠ tag) :
    e'.children.findIdx? (Element.hasTag tag) = e.children.findIdx? (Element.hasTag tag) := by
  have hbytag : ∀ l : List Element,
      l.findIdx? (Element.hasTag tag) = (l.map Element.tag).findIdx? (· == tag) := by
    intro l
    rw [List.findIdx?_map]
    rfl
  have hnone : (added.map Element.tag).findIdx? (· == tag) = none := by
    rw [← hbytag, List.findIdx?_eq_none_iff]
    intro child hchild
    exact beq_eq_false_iff_ne.mpr (hadded child hchild)
  rw [hbytag, hbytag, h.map_tag hslots, List.findIdx?_append, hnone, Option.map_none,
    Option.or_none]

/-! ### Nothing is lost -/

/-- The element at a position, given as child indices from the root. -/
def Element.subtreeAt (e : Element) : List Nat → Option Element
  | [] => some e
  | i :: path => e.children[i]?.bind fun child => child.subtreeAt path

/-- Every element is where it was, with its tag, its text and its attributes except
those under `keys`. -/
def Retains (keys : List PyStr) (e e' : Element) : Prop :=
  ∀ path x, e.subtreeAt path = some x →
    ∃ x', e'.subtreeAt path = some x' ∧ x'.tag = x.tag ∧ x'.text = x.text ∧ x'.tail = x.tail ∧
      ∀ key, key ∉ keys → x'.get key = x.get key

theorem Grown.retains (h : Grown keys₁ slots added e e') (hkeys : keys₁ ⊆ keys)
    (hslots : ∀ slot ∈ slots, ∀ child child', slot.changes child child' →
      Retains keys child child') : Retains keys e e' := by
  intro path x hx
  cases path with
  | nil =>
      cases hx
      exact ⟨e', rfl, h.tag, h.text, h.tail, fun key hkey =>
        h.get key fun hmem => hkey (hkeys hmem)⟩
  | cons i path =>
      obtain ⟨child, hchild, hx⟩ := Option.bind_eq_some_iff.mp hx
      obtain ⟨child', hchild', hchanges, hsame⟩ := h.children i child hchild
      have hinner : Retains keys child child' := by
        by_cases hslot : ∃ slot ∈ slots, e.children.findIdx? slot.selects = some i
        · obtain ⟨slot, hmem, hfirst⟩ := hslot
          exact hslots slot hmem child child' (hchanges slot hmem hfirst)
        · rw [hsame fun slot hmem hfirst => hslot ⟨slot, hmem, hfirst⟩]
          exact fun path x hx => ⟨x, hx, rfl, rfl, rfl, fun _ _ => rfl⟩
      obtain ⟨x', hx', hkept⟩ := hinner path x hx
      exact ⟨x', by rw [Element.subtreeAt, hchild']; exact hx', hkept⟩

end DraEnv.PyStd
