import DraEnv.Foundation.Upsert
import DraEnv.PyStd.Str

/-!
Element trees as Python's `xml.etree.ElementTree` builds them, with the
searches and the in-place changes the domain rewriter makes.

An element found in a tree is a reference, and setting an attribute on it
or appending a child changes the tree. Here a change is a function on the
element found, carried out at the first place the search finds
(`updateChild`, `updatePath`), or on a fresh element appended where it
finds none (`atChild`, for the pattern `find` and then `SubElement`). The
lemmas below say what a later search finds, and no proof above this
module looks into a child list.
-/

namespace DraEnv.PyStd

open DraEnv.Foundation

/-- The attribute dictionary of an element, in insertion order. -/
structure Attrib where
  entries : List (PyStr × PyStr)
  nodup : (entries.map Prod.fst).Nodup

namespace Attrib

def empty : Attrib := ⟨[], List.nodup_nil⟩

def hasKey (key : PyStr) (entry : PyStr × PyStr) : Bool := entry.1 == key

def get (a : Attrib) (key : PyStr) : Option PyStr := (a.entries.find? (hasKey key)).map Prod.snd

theorem nodup_upsert (a : Attrib) (key value : PyStr) :
    ((upsert (hasKey key) (key, value) (fun _ => (key, value)) a.entries).map Prod.fst).Nodup := by
  cases h : a.entries.find? (hasKey key) with
  | some entry =>
      simp only [upsert, h]
      rw [map_updateFirst]
      · exact a.nodup
      · intro entry hentry
        exact (beq_iff_eq.mp hentry).symm
  | none =>
      simp only [upsert, h, List.map_append, List.map_cons, List.map_nil]
      rw [List.nodup_append]
      refine ⟨a.nodup, List.nodup_singleton _, ?_⟩
      intro key' hkey' k hk
      rw [List.mem_singleton.mp hk]
      obtain ⟨entry, hentry, rfl⟩ := List.mem_map.mp hkey'
      have hne := List.find?_eq_none.mp h entry hentry
      simpa [hasKey] using hne

/-- `attrib[key] = value`: in place if the key is there, at the end if not. -/
def set (a : Attrib) (key value : PyStr) : Attrib where
  entries := upsert (hasKey key) (key, value) (fun _ => (key, value)) a.entries
  nodup := a.nodup_upsert key value

theorem get_set_self (a : Attrib) (key value : PyStr) : (a.set key value).get key = some value := by
  have hkey : hasKey key (key, value) = true := beq_self_eq_true key
  rw [get, set, find?_upsert (fun _ _ => hkey) hkey]
  rfl

theorem get_set_of_ne (a : Attrib) {key key' : PyStr} (value : PyStr) (h : key' ≠ key) :
    (a.set key value).get key' = a.get key' := by
  have hkey : hasKey key (key, value) = true := beq_self_eq_true key
  have hother : ∀ entry, hasKey key entry = true → hasKey key' entry = false := by
    intro entry hentry
    rw [hasKey, beq_iff_eq] at hentry
    rw [hasKey, hentry, beq_eq_false_iff_ne]
    exact h.symm
  rw [get, get, set, find?_eq_of_filter_eq (filter_upsert hother (fun _ _ => hkey) hkey _)]

end Attrib

structure Element where
  tag : PyStr
  attrib : Attrib
  text : Option PyStr
  tail : Option PyStr
  children : List Element

namespace Element

/-- What `SubElement` appends when it is given no attributes. -/
def new (tag : PyStr) : Element := ⟨tag, .empty, none, none, []⟩

def hasTag (tag : PyStr) (e : Element) : Bool := e.tag == tag

def find (e : Element) (tag : PyStr) : Option Element := e.children.find? (hasTag tag)

def findall (e : Element) (tag : PyStr) : List Element := e.children.filter (hasTag tag)

/-- `find("./a/b")`: the first `b` among the children of the `a`s. -/
def findPath (e : Element) (a b : PyStr) : Option Element :=
  ((e.findall a).flatMap fun child => child.findall b).head?

def get (e : Element) (key : PyStr) : Option PyStr := e.attrib.get key

def set (e : Element) (key value : PyStr) : Element :=
  { e with attrib := e.attrib.set key value }

def append (e child : Element) : Element := { e with children := e.children ++ [child] }

/-- A change made on the child `find` returns, if there is one. -/
def updateChild (e : Element) (tag : PyStr) (f : Element → Element) : Element :=
  { e with children := updateFirst (hasTag tag) f e.children }

/-- A change made on the element `findPath` returns, if there is one. -/
def updatePath (e : Element) (a b : PyStr) (f : Element → Element) : Element :=
  { e with
    children := updateFirst (fun child => child.hasTag a && (child.find b).isSome)
      (fun child => child.updateChild b f) e.children }

/-- Code that runs on the first child with a tag, after appending a new one if
there is none; it is told which was the case. -/
def atChild {β : Type} (e : Element) (tag : PyStr) (k : Bool → Element → Element × β) :
    Element × β :=
  match e.find tag with
  | some child => (e.updateChild tag fun _ => (k false child).1, (k false child).2)
  | none => (e.append (k true (new tag)).1, (k true (new tag)).2)

theorem get_set_self (e : Element) (key value : PyStr) : (e.set key value).get key = some value :=
  e.attrib.get_set_self key value

theorem get_set_of_ne (e : Element) {key key' : PyStr} (value : PyStr) (h : key' ≠ key) :
    (e.set key value).get key' = e.get key' :=
  e.attrib.get_set_of_ne value h

theorem hasTag_of_find {e child : Element} {tag : PyStr} (h : e.find tag = some child) :
    child.hasTag tag = true := List.find?_some h

theorem find_eq_head? (e : Element) (tag : PyStr) : e.find tag = (e.findall tag).head? :=
  (List.head?_filter).symm

theorem hasTag_ne {tag tag' : PyStr} (h : tag' ≠ tag) {e : Element} (he : e.hasTag tag = true) :
    e.hasTag tag' = false := by
  rw [hasTag, beq_iff_eq] at he
  rw [hasTag, he, beq_eq_false_iff_ne]
  exact h.symm

/-! ### Searching after a change -/

theorem find_updateChild {e child : Element} {tag : PyStr} {f : Element → Element}
    (h : e.find tag = some child) (hf : (f child).tag = child.tag) :
    (e.updateChild tag f).find tag = some (f child) := by
  refine find?_updateFirst h ?_
  rw [hasTag, hf]
  exact hasTag_of_find h

theorem findall_updateChild_of_ne {tag tag' : PyStr} (e : Element) {f : Element → Element}
    (h : tag' ≠ tag) (hf : ∀ child, child.hasTag tag = true → (f child).hasTag tag = true) :
    (e.updateChild tag f).findall tag' = e.findall tag' :=
  filter_updateFirst (p := hasTag tag) (fun _ hchild => hasTag_ne h hchild)
    (fun child hchild => hasTag_ne h (hf child hchild)) e.children

theorem updateChild_eq_self {e child : Element} {tag : PyStr} {f : Element → Element}
    (h : e.find tag = some child) (hf : f child = child) : e.updateChild tag f = e := by
  have hchildren : updateFirst (hasTag tag) f e.children = e.children := by
    apply updateFirst_eq_self
    intro child' hchild'
    obtain rfl : child = child' := Option.some.inj (h.symm.trans hchild')
    exact hf
  rw [updateChild, hchildren]
  cases e
  rfl

theorem find_append_of_none {e child : Element} {tag : PyStr} (h : e.find tag = none)
    (hchild : child.hasTag tag = true) : (e.append child).find tag = some child := by
  rw [find] at h
  rw [find, append, List.find?_append, h, Option.none_or, List.find?_cons_of_pos hchild]

theorem findall_append (e child : Element) (tag : PyStr) :
    (e.append child).findall tag =
      e.findall tag ++ if child.hasTag tag then [child] else [] := by
  rw [findall, append, List.filter_append]
  cases h : child.hasTag tag with
  | true => simp [h, findall]
  | false => simp [h, findall]

section AtChild

variable {β : Type} {tag : PyStr} {k : Bool → Element → Element × β}

theorem find_atChild_of_some {e child : Element} (hk : ∀ b c, (k b c).1.tag = c.tag)
    (h : e.find tag = some child) : (e.atChild tag k).1.find tag = some (k false child).1 := by
  simp only [atChild, h]
  exact find_updateChild h (hk false child)

theorem find_atChild_of_none {e : Element} (hk : ∀ b c, (k b c).1.tag = c.tag)
    (h : e.find tag = none) : (e.atChild tag k).1.find tag = some (k true (new tag)).1 := by
  simp only [atChild, h]
  refine find_append_of_none h ?_
  rw [hasTag, hk]
  exact beq_self_eq_true tag

theorem findall_atChild_of_ne {tag' : PyStr} (e : Element) (hk : ∀ b c, (k b c).1.tag = c.tag)
    (hne : tag' ≠ tag) : (e.atChild tag k).1.findall tag' = e.findall tag' := by
  cases h : e.find tag with
  | some child =>
      simp only [atChild, h]
      refine findall_updateChild_of_ne e hne fun _ _ => ?_
      rw [hasTag, hk]
      exact hasTag_of_find h
  | none =>
      have hnew : (k true (new tag)).1.hasTag tag = true := by
        rw [hasTag, hk]
        exact beq_self_eq_true tag
      simp only [atChild, h, findall_append, hasTag_ne hne hnew]
      exact List.append_nil _

theorem find_atChild_of_ne {tag' : PyStr} (e : Element) (hk : ∀ b c, (k b c).1.tag = c.tag)
    (hne : tag' ≠ tag) : (e.atChild tag k).1.find tag' = e.find tag' := by
  rw [find_eq_head?, find_eq_head?, findall_atChild_of_ne e hk hne]

theorem tag_atChild (e : Element) : (e.atChild tag k).1.tag = e.tag := by
  cases h : e.find tag <;> simp only [atChild, h] <;> rfl

theorem get_atChild (e : Element) (key : PyStr) : (e.atChild tag k).1.get key = e.get key := by
  cases h : e.find tag <;> simp only [atChild, h] <;> rfl

end AtChild

/-! ### Searching along a path -/

/-- The path leads through the first `a` that has a `b`. -/
theorem findPath_eq (e : Element) (a b : PyStr) :
    e.findPath a b =
      (e.children.find? fun child => child.hasTag a && (child.find b).isSome).bind
        fun child => child.find b := by
  simp only [find_eq_head?]
  exact head?_flatMap_filter _ _ _

theorem findPath_updatePath {e t : Element} {a b : PyStr} {f : Element → Element}
    (h : e.findPath a b = some t) (hf : (f t).tag = t.tag) :
    (e.updatePath a b f).findPath a b = some (f t) := by
  rw [findPath_eq] at h
  obtain ⟨child, hchild, ht⟩ := Option.bind_eq_some_iff.mp h
  have hafter : (child.updateChild b f).find b = some (f t) := find_updateChild ht hf
  have hmatch : ((child.updateChild b f).hasTag a && ((child.updateChild b f).find b).isSome) =
      true := by
    have hboth := List.find?_some hchild
    rw [Bool.and_eq_true_iff] at hboth
    rw [hafter, Option.isSome_some, Bool.and_true]
    exact hboth.1
  have hfind := find?_updateFirst (f := fun child => child.updateChild b f) hchild hmatch
  rw [findPath_eq]
  exact Option.bind_eq_some_iff.mpr ⟨_, hfind, hafter⟩

theorem findall_updatePath_of_ne (e : Element) {a b tag' : PyStr} {f : Element → Element}
    (h : tag' ≠ a) : (e.updatePath a b f).findall tag' = e.findall tag' := by
  refine filter_updateFirst (p := fun child => child.hasTag a && (child.find b).isSome)
    (fun child hchild => ?_) (fun child hchild => ?_) e.children
  · exact hasTag_ne h (Bool.and_eq_true_iff.mp hchild).1
  · have htag : (child.updateChild b f).hasTag a = true := (Bool.and_eq_true_iff.mp hchild).1
    exact hasTag_ne h htag

/-- What a path finds depends on the elements it starts from. -/
theorem findPath_congr {e e' : Element} {a b : PyStr} (h : e.findall a = e'.findall a) :
    e.findPath a b = e'.findPath a b := by
  rw [findPath, findPath, h]

end Element

end DraEnv.PyStd
