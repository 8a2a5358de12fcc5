import DraEnv.Sriovvf.Tool

/-!
PCI addresses.

`isPCIAddress` splits at the colons and then at the dot, and checks the
width of each field in bytes and its digits rune by rune. A field that
passes has only ASCII bytes, so the two counts agree, and what is
accepted are the texts of an `Address`, four fields with their
separators. In particular an address is a plain file name.
-/

namespace DraEnv.Sriovvf

open DraEnv.GoStd

def colon : UInt8 := 0x3A

def period : UInt8 := 0x2E

def IsHex (s : GoString) : Prop := ∀ b ∈ s, isHexDigit b.toNat = true

theorem lt_of_isHexDigit {ch : Nat} (h : isHexDigit ch = true) : ch < 0x80 := by
  simp only [isHexDigit, Bool.or_eq_true, Bool.and_eq_true, decide_eq_true_eq] at h
  omega

theorem isFixedHex_iff {s : GoString} {width : Nat} :
    isFixedHex s width = true ↔ s.length = width ∧ IsHex s := by
  have hrunes : (∀ b ∈ s, b < 0x80) →
      ((runes s).all isHexDigit = true ↔ IsHex s) := by
    intro hascii
    rw [runes_eq_map hascii, IsHex]
    simp
  rw [isFixedHex]
  by_cases hwidth : s.length = width
  · rw [if_neg (not_not.mpr hwidth)]
    constructor
    · intro h
      have hascii := ascii_of_runes fun r hr => lt_of_isHexDigit (List.all_eq_true.mp h r hr)
      exact ⟨hwidth, (hrunes hascii).mp h⟩
    · rintro ⟨-, h⟩
      exact (hrunes fun b hb => lt_of_isHexDigit (h b hb)).mpr h
  · simp [hwidth]

theorem IsHex.not_mem {s : GoString} (h : IsHex s) {b : UInt8} (hb : isHexDigit b.toNat = false) :
    b ∉ s := by
  intro hmem
  rw [h b hmem] at hb
  simp at hb

/-- An address, `domain:bus:device.function`, by its fields. -/
structure Address where
  domain : GoString
  bus : GoString
  device : GoString
  function : GoString
  domain_hex : domain.length = 4 ∧ IsHex domain
  bus_hex : bus.length = 2 ∧ IsHex bus
  device_hex : device.length = 2 ∧ IsHex device
  function_hex : function.length = 1 ∧ IsHex function

def Address.slot (a : Address) : GoString := [period].intercalate [a.device, a.function]

def Address.text (a : Address) : GoString := [colon].intercalate [a.domain, a.bus, a.slot]

theorem exists_address {addr : GoString} (h : isPCIAddress addr = true) :
    ∃ a : Address, a.text = addr := by
  rw [isPCIAddress] at h
  split at h
  next part0 part1 part2 hparts =>
    split at h
    · simp at h
    next hfixed =>
      split at h
      next last0 last1 hlast =>
        have haddr : [colon].intercalate (addr.splitOn colon) = addr :=
          List.intercalate_splitOn colon
        have hpart2 : [period].intercalate (part2.splitOn period) = part2 :=
          List.intercalate_splitOn period
        rw [colon, hparts] at haddr
        rw [period, hlast] at hpart2
        simp only [Bool.or_eq_true, Bool.not_eq_true', not_or, Bool.not_eq_false,
          isFixedHex_iff] at hfixed
        rw [Bool.and_eq_true, isFixedHex_iff, isFixedHex_iff] at h
        refine ⟨⟨part0, part1, last0, last1, hfixed.1, hfixed.2, h.1, h.2⟩, ?_⟩
        rw [← haddr, ← hpart2]
        rfl
      · simp at h
  · simp at h

namespace Address

variable (a : Address)

theorem splitOn_slot : a.slot.splitOn period = [a.device, a.function] := by
  have hperiod : isHexDigit period.toNat = false := by decide
  apply List.splitOn_intercalate period
  · simpa using ⟨a.device_hex.2.not_mem hperiod, a.function_hex.2.not_mem hperiod⟩
  · simp

theorem not_mem_slot {b : UInt8} (hb : isHexDigit b.toNat = false) (hne : b ≠ period) :
    b ∉ a.slot := by
  simpa [slot] using ⟨a.device_hex.2.not_mem hb, hne, a.function_hex.2.not_mem hb⟩

theorem splitOn_text : a.text.splitOn colon = [a.domain, a.bus, a.slot] := by
  have hcolon : isHexDigit colon.toNat = false := by decide
  apply List.splitOn_intercalate colon
  · simpa using ⟨a.domain_hex.2.not_mem hcolon, a.bus_hex.2.not_mem hcolon,
      a.not_mem_slot hcolon (by decide)⟩
  · simp

theorem isPCIAddress_text : isPCIAddress a.text = true := by
  rw [isPCIAddress, ← colon, splitOn_text]
  dsimp only
  rw [← period, splitOn_slot]
  simp [isFixedHex_iff, a.domain_hex, a.bus_hex, a.device_hex, a.function_hex]

theorem length_text : a.text.length = 12 := by
  simp [text, slot, a.domain_hex, a.bus_hex, a.device_hex, a.function_hex]

theorem slash_not_mem_text : slash ∉ a.text := by
  have hslash : isHexDigit slash.toNat = false := by decide
  simpa [text] using ⟨a.domain_hex.2.not_mem hslash, by decide, a.bus_hex.2.not_mem hslash,
    by decide, a.not_mem_slot hslash (by decide)⟩

end Address

theorem isPCIAddress_iff {addr : GoString} :
    isPCIAddress addr = true ↔ ∃ a : Address, a.text = addr := by
  constructor
  · exact exists_address
  · rintro ⟨a, rfl⟩
    exact a.isPCIAddress_text

theorem plain_of_isPCIAddress {addr : GoString} (h : isPCIAddress addr = true) : Plain addr := by
  obtain ⟨a, rfl⟩ := isPCIAddress_iff.mp h
  refine plain_of_length ?_ a.slash_not_mem_text
  rw [a.length_text]
  decide

/-! ### The grammar -/

/-- An address byte by byte: `H` stands for a digit, anything else for itself. -/
def addressForm : GoString := lit "HHHH:HH:HH.H"

def hexDigits : GoString := lit "0123456789abcdefABCDEF"

/-- The byte may stand at a place of the form. -/
def FitsForm (form b : UInt8) : Prop := if form = 0x48 then b ∈ hexDigits else b = form

theorem mem_hexDigits (b : UInt8) : b ∈ hexDigits ↔ isHexDigit b.toNat = true := by
  revert b
  decide +kernel

theorem isHex_cons {b : UInt8} {s : GoString} :
    IsHex (b :: s) ↔ isHexDigit b.toNat = true ∧ IsHex s := by
  simp [IsHex]

theorem forall₂_field {n : Nat} {form s : GoString} :
    List.Forall₂ FitsForm (List.replicate n 0x48 ++ form) s ↔
      ∃ field rest, (field.length = n ∧ IsHex field) ∧ List.Forall₂ FitsForm form rest ∧
        field ++ rest = s := by
  induction n generalizing s with
  | zero =>
      constructor
      · intro h
        exact ⟨[], s, ⟨rfl, by simp [IsHex]⟩, h, rfl⟩
      · rintro ⟨field, rest, ⟨hlength, -⟩, hrest, rfl⟩
        rw [List.length_eq_zero_iff.mp hlength]
        exact hrest
  | succ n ih =>
      rw [List.replicate_succ, List.cons_append, List.forall₂_cons_left_iff]
      constructor
      · rintro ⟨b, s, hb, hs, rfl⟩
        obtain ⟨field, rest, ⟨hlength, hhex⟩, hrest, rfl⟩ := ih.mp hs
        rw [FitsForm, if_pos rfl, mem_hexDigits] at hb
        exact ⟨b :: field, rest, ⟨by simp [hlength], isHex_cons.mpr ⟨hb, hhex⟩⟩, hrest, rfl⟩
      · rintro ⟨field, rest, ⟨hlength, hhex⟩, hrest, rfl⟩
        obtain ⟨b, field, rfl⟩ := List.exists_cons_of_length_eq_add_one hlength
        obtain ⟨hb, hhex⟩ := isHex_cons.mp hhex
        refine ⟨b, field ++ rest, ?_, ih.mpr ⟨field, rest, ⟨by simpa using hlength, hhex⟩,
          hrest, rfl⟩, rfl⟩
        rwa [FitsForm, if_pos rfl, mem_hexDigits]

theorem forall₂_separator {sep : UInt8} (hsep : sep ≠ 0x48) {form s : GoString} :
    List.Forall₂ FitsForm (sep :: form) s ↔
      ∃ rest, List.Forall₂ FitsForm form rest ∧ sep :: rest = s := by
  simp [List.forall₂_cons_left_iff, FitsForm, hsep, eq_comm]

theorem addressForm_eq : addressForm =
    List.replicate 4 0x48 ++ colon :: (List.replicate 2 0x48 ++ colon ::
      (List.replicate 2 0x48 ++ period :: (List.replicate 1 0x48 ++ []))) := by
  decide

theorem forall₂_addressForm {addr : GoString} :
    List.Forall₂ FitsForm addressForm addr ↔ ∃ a : Address, a.text = addr := by
  have hcolon : colon ≠ 0x48 := by decide
  have hperiod : period ≠ 0x48 := by decide
  rw [addressForm_eq]
  simp only [forall₂_field, forall₂_separator hcolon, forall₂_separator hperiod,
    List.forall₂_nil_left_iff]
  constructor
  · rintro ⟨domain, -, hdomain, ⟨-, ⟨bus, -, hbus, ⟨-, ⟨device, -, hdevice,
      ⟨-, ⟨function, -, hfunction, rfl, rfl⟩, rfl⟩, rfl⟩, rfl⟩, rfl⟩, rfl⟩, rfl⟩
    exact ⟨⟨domain, bus, device, function, hdomain, hbus, hdevice, hfunction⟩,
      by simp [Address.text, Address.slot]⟩
  · rintro ⟨a, rfl⟩
    exact ⟨_, _, a.domain_hex, ⟨_, ⟨_, _, a.bus_hex, ⟨_, ⟨_, _, a.device_hex,
      ⟨_, ⟨_, _, a.function_hex, rfl, rfl⟩, rfl⟩, rfl⟩, rfl⟩, rfl⟩, rfl⟩,
      by simp [Address.text, Address.slot]⟩

/-- Exactly the strings of the form are accepted, and such a string is a name that
leads into the devices directory and no further. -/
theorem isPCIAddress_exact (addr : GoString) :
    (isPCIAddress addr = true ↔ List.Forall₂ FitsForm addressForm addr) ∧
      (isPCIAddress addr = true → slash ∉ addr ∧
        ∀ sysfsRoot, IsChild (devicesDir sysfsRoot) addr (join [devicesDir sysfsRoot, addr])) := by
  refine ⟨isPCIAddress_iff.trans forall₂_addressForm.symm, fun haddr => ?_⟩
  have hplain := plain_of_isPCIAddress haddr
  exact ⟨hplain.no_slash, fun sysfsRoot => isChild_join _ hplain⟩

end DraEnv.Sriovvf
