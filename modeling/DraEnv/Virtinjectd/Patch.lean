import DraEnv.Virtinjectd.Proxy

/-!
What interception does to the arguments of a define call.

On the abstract side a define call carries an XML document and a trailer,
and a hook chain is a function on documents that is applied to the first
and leaves the second alone (`DefineArgs.rewrite`). On the concrete side
the arguments are a payload: an XDR string, whose padding may be anything,
followed by the trailer. `intercept_splits` computes the payload that is
forwarded, and `intercept_coded` says that interception is the concrete
form of `rewrite` as long as the new document is within the decoder's
limit. What interception composes to is then a fact about functions on
documents.
-/

namespace DraEnv.Virtinjectd

open DraEnv.GoStd DraEnv.Foundation

/-- The arguments of a define call. -/
structure DefineArgs where
  xml : GoString
  trailer : Bytes

def DefineArgs.rewrite (f : GoString → GoString) (args : DefineArgs) : DefineArgs :=
  { args with xml := f args.xml }

theorem DefineArgs.rewrite_rewrite (f g : GoString → GoString) (args : DefineArgs) :
    (args.rewrite f).rewrite g = args.rewrite (g ∘ f) := rfl

/-- `payload` carries `args`, with some padding behind the document. -/
def DefineArgs.Coded (args : DefineArgs) (payload : Bytes) : Prop :=
  ∃ pad, Splits payload args.xml pad args.trailer

/-- The payload that carries `args` with zeros for padding. -/
def DefineArgs.marshal (args : DefineArgs) : Bytes := encodeXDRString args.xml ++ args.trailer

/-- The function on documents a chain computes. A chain that fails returns its
input. -/
def HookChain.rewriter (host : Host) (hc : HookChain) (xml : GoString) : GoString :=
  (hc.run host xml).output

theorem HookChain.rewriter_of_err {host : Host} {hc : HookChain} {xml : GoString}
    (h : (hc.run host xml).err.isSome) : hc.rewriter host xml = xml := by
  cases hhooks : hc.hooks host with
  | error err => rw [HookChain.rewriter, HookChain.run_error hhooks]
  | ok hooks =>
      rw [HookChain.run_ok hhooks] at h
      simp at h

theorem HookChain.rewriter_of_hooks {host : Host} {hc : HookChain} {hooks : List GoString}
    (h : hc.hooks host = .ok hooks) (xml : GoString) :
    hc.rewriter host xml = (runHooks host hc.hookDomainName hooks xml).1 := by
  rw [HookChain.rewriter, HookChain.run_ok h]

/-! ### One call -/

theorem intercept_of_decode_error {w : IntSize} {payload : Bytes} {err : GoError} (host : Host)
    (hc : HookChain) (header : Header) (h : decodeXDRString w payload = .error err) :
    intercept w host hc header payload = payload := by
  simp only [intercept, patchDefineXML, h, ite_self]

/-- The payload forwarded for a define call whose payload decodes. -/
theorem intercept_splits {header : Header} {payload s pad rest : Bytes} (w : IntSize) (host : Host)
    (hc : HookChain) (hcall : isDomainDefineCall header = true)
    (hsplit : Splits payload s pad rest) :
    intercept w host hc header payload =
      if hc.rewriter host s = s then payload else encodeXDRString (hc.rewriter host s) ++ rest := by
  simp only [intercept, hcall, Bool.not_true, Bool.false_eq_true, if_false, patchDefineXML,
    hsplit.decode w]
  cases herr : (hc.run host s).err with
  | some err =>
      have hsame : hc.rewriter host s = s := HookChain.rewriter_of_err (by simp [herr])
      simp only [hsame, if_true]
  | none =>
      simp only [HookChain.rewriter, hsplit.replace w]
      by_cases hsame : (hc.run host s).output = s
      · simp only [hsame, if_true]
      · simp only [hsame, if_false]

/-- The encoder leaves the length of what follows it aligned. -/
theorem four_dvd_encodeXDRString (s : GoString) : 4 ∣ (encodeXDRString s).length := by
  have hdvd := four_dvd_add_padLen s.length
  rw [encodeXDRString_length]
  omega

theorem Splits.front {data s pad rest : Bytes} (h : Splits data s pad rest) :
    ∃ front, 4 ∣ front.length ∧ data = front ++ rest := by
  refine ⟨putUint32 (UInt32.ofNat s.length) ++ s ++ pad, ?_, h.eq⟩
  have hdvd := four_dvd_add_padLen s.length
  simp only [List.length_append, putUint32_length, h.pad_length]
  omega

/-- Whatever is forwarded keeps the trailer, at an aligned offset. -/
theorem intercept_front {payload s pad rest : Bytes} (w : IntSize) (host : Host) (hc : HookChain)
    (header : Header) (hsplit : Splits payload s pad rest) :
    ∃ front, 4 ∣ front.length ∧ intercept w host hc header payload = front ++ rest := by
  cases hcall : isDomainDefineCall header with
  | false =>
      rw [intercept_of_not_define w host hc payload hcall]
      exact hsplit.front
  | true =>
      rw [intercept_splits w host hc hcall hsplit]
      split
      · exact hsplit.front
      · exact ⟨_, four_dvd_encodeXDRString _, rfl⟩

theorem intercept_length_mod (w : IntSize) (host : Host) (hc : HookChain) (header : Header)
    (payload : Bytes) :
    (intercept w host hc header payload).length % 4 = payload.length % 4 := by
  cases hdecode : decodeXDRString w payload with
  | error err => rw [intercept_of_decode_error host hc header hdecode]
  | ok result =>
      obtain ⟨pad, rest, hsplit⟩ := exists_splits_of_decode hdecode
      obtain ⟨front, hfront, heq⟩ := intercept_front w host hc header hsplit
      obtain ⟨front', hfront', heq'⟩ := hsplit.front
      rw [heq, heq', List.length_append, List.length_append]
      omega

/-- The exact effect of interception on one call, for a chain whose output has a
length that fits the length word. -/
theorem intercept_effect (w : IntSize) (host : Host) (hc : HookChain) (header : Header)
    (payload : Bytes)
    (hshort : ∀ s n, decodeXDRString w payload = .ok (s, n) →
      (hc.run host s).output.length < 2 ^ 32) :
    (isDomainDefineCall header = false → intercept w host hc header payload = payload) ∧
    (∀ err, decodeXDRString w payload = .error err →
      intercept w host hc header payload = payload) ∧
    (∀ s n, decodeXDRString w payload = .ok (s, n) →
      ∃ pad rest, Splits payload s pad rest ∧
        ((hc.run host s).err.isSome → intercept w host hc header payload = payload) ∧
        ((hc.run host s).output = s → intercept w host hc header payload = payload) ∧
        (isDomainDefineCall header = true → (hc.run host s).err = none →
          (hc.run host s).output ≠ s →
          ∃ (length : UInt32) (k : Nat), length.toNat = (hc.run host s).output.length ∧
            k < 4 ∧ 4 ∣ (hc.run host s).output.length + k ∧
            intercept w host hc header payload =
              putUint32 length ++ (hc.run host s).output ++ List.replicate k 0 ++ rest) ∧
        ∃ front, 4 ∣ front.length ∧ intercept w host hc header payload = front ++ rest) ∧
    (intercept w host hc header payload).length % 4 = payload.length % 4 := by
  refine ⟨intercept_of_not_define w host hc payload,
    fun err herr => intercept_of_decode_error host hc header herr, ?_,
    intercept_length_mod w host hc header payload⟩
  intro s n hdecode
  obtain ⟨pad, rest, hsplit⟩ := exists_splits_of_decode hdecode
  have hsame : hc.rewriter host s = s → intercept w host hc header payload = payload := by
    intro hs
    cases hcall : isDomainDefineCall header with
    | false => exact intercept_of_not_define w host hc payload hcall
    | true => rw [intercept_splits w host hc hcall hsplit, if_pos hs]
  refine ⟨pad, rest, hsplit, fun herr => hsame (HookChain.rewriter_of_err herr), hsame, ?_,
    intercept_front w host hc header hsplit⟩
  intro hcall _ hnew
  refine ⟨UInt32.ofNat (hc.run host s).output.length, padLen (hc.run host s).output.length,
    ?_, padLen_lt _, four_dvd_add_padLen _, ?_⟩
  · rw [UInt32.toNat_ofNat', Nat.mod_eq_of_lt (hshort s n hdecode)]
  · rw [intercept_splits w host hc hcall hsplit, HookChain.rewriter, if_neg hnew,
      encodeXDRString_eq]

theorem oneHook_hooks (f : GoString → GoString) :
    oneHook.hooks (filterHost f) = .ok [lit "/hook"] := rfl

theorem oneHook_rewriter (f : GoString → GoString) (xml : GoString) :
    oneHook.rewriter (filterHost f) xml = if isBlank (f xml) then xml else f xml := by
  have hpath : (filterHost f).commandPath (lit "/hook") = some (lit "/hook") :=
    if_pos (by decide)
  obtain ⟨-, hnext⟩ := runHook_found oneHook.hookDomainName xml hpath
  rw [HookChain.rewriter_of_hooks (oneHook_hooks f), runHooks, runHooks, hnext]
  simp only [Exec.effect, filterHost]
  split <;> rfl

/-- A document with odd padding and a flags word behind it. -/
def oddPadding : Bytes := putUint32 3 ++ lit "abc" ++ [7] ++ putUint32 1

theorem oddPadding_splits : Splits oddPadding (lit "abc") [7] (putUint32 1) where
  eq := by decide
  length_le := by decide
  pad_length := by decide

theorem intercept_effect_oddPadding :
    intercept .w64 (filterHost (· ++ lit "d")) oneHook defineFlagsCall oddPadding =
      putUint32 4 ++ lit "abcd" ++ putUint32 1 := by
  have hrun : (oneHook.run (filterHost (· ++ lit "d")) (lit "abc")).output = lit "abcd" :=
    (oneHook_rewriter _ _).trans (by decide)
  have hdecode := oddPadding_splits.decode .w64
  obtain ⟨-, -, hok, -⟩ := intercept_effect .w64 (filterHost (· ++ lit "d")) oneHook
    defineFlagsCall oddPadding (by
      intro s n hs
      rw [hdecode, Except.ok.injEq, Prod.mk.injEq] at hs
      rw [← hs.1, hrun]
      decide)
  obtain ⟨pad, rest, hsplit, -, -, hnew, -⟩ := hok _ _ hdecode
  obtain ⟨-, -, rfl⟩ := hsplit.unique oddPadding_splits
  rw [hrun] at hnew
  obtain ⟨length, k, hlength, hk, hdvd, heq⟩ := hnew (by decide) rfl (by decide)
  obtain rfl : k = 0 := by
    rw [show (lit "abcd").length = 4 from by decide] at hdvd
    omega
  obtain rfl : length = 4 := UInt32.toNat_inj.mp hlength
  exact heq

/-! ### Two calls in series -/

/-- A rewriter that maps documents within the decoder's limit to such. -/
def KeepsLimit (f : GoString → GoString) : Prop :=
  ∀ xml, xml.length ≤ xdrStringMaxLen → (f xml).length ≤ xdrStringMaxLen

/-- Interception carries out the chain's rewriter on what the payload stands
for. -/
theorem intercept_coded {header : Header} {args : DefineArgs} {payload : Bytes} (w : IntSize)
    (host : Host) (hc : HookChain) (hcall : isDomainDefineCall header = true)
    (hkeeps : KeepsLimit (hc.rewriter host)) (hcoded : args.Coded payload) :
    (args.rewrite (hc.rewriter host)).Coded (intercept w host hc header payload) := by
  obtain ⟨pad, hsplit⟩ := hcoded
  rw [intercept_splits w host hc hcall hsplit]
  by_cases hsame : hc.rewriter host args.xml = args.xml
  · rw [if_pos hsame]
    refine ⟨pad, ?_⟩
    rw [DefineArgs.rewrite, hsame]
    exact hsplit
  · rw [if_neg hsame]
    exact ⟨_, splits_encodeXDRString (hkeeps _ hsplit.length_le) args.trailer⟩

/-- On zero padding the shortcut for an unchanged document and the encoder give
the same bytes. -/
theorem intercept_marshal {header : Header} {args : DefineArgs} (w : IntSize) (host : Host)
    (hc : HookChain) (hcall : isDomainDefineCall header = true)
    (hlen : args.xml.length ≤ xdrStringMaxLen) :
    intercept w host hc header args.marshal = (args.rewrite (hc.rewriter host)).marshal := by
  have hsplit := splits_encodeXDRString hlen args.trailer
  rw [DefineArgs.marshal, intercept_splits w host hc hcall hsplit]
  by_cases hsame : hc.rewriter host args.xml = args.xml
  · rw [if_pos hsame, DefineArgs.marshal, DefineArgs.rewrite, hsame]
  · rw [if_neg hsame, DefineArgs.marshal, DefineArgs.rewrite]

theorem intercept_marshal_marshal {header : Header} {args : DefineArgs} {host₁ host₂ host₃ : Host}
    {hc₁ hc₂ hc₃ : HookChain} (w₁ w₂ w₃ : IntSize) (hcall : isDomainDefineCall header = true)
    (hcomp : hc₃.rewriter host₃ = hc₂.rewriter host₂ ∘ hc₁.rewriter host₁)
    (hkeeps : KeepsLimit (hc₁.rewriter host₁)) (hlen : args.xml.length ≤ xdrStringMaxLen) :
    intercept w₂ host₂ hc₂ header (intercept w₁ host₁ hc₁ header args.marshal) =
      intercept w₃ host₃ hc₃ header args.marshal := by
  have hlen₁ : (args.rewrite (hc₁.rewriter host₁)).xml.length ≤ xdrStringMaxLen := hkeeps _ hlen
  rw [intercept_marshal w₁ host₁ hc₁ hcall hlen, intercept_marshal w₂ host₂ hc₂ hcall hlen₁,
    intercept_marshal w₃ host₃ hc₃ hcall hlen, DefineArgs.rewrite_rewrite, hcomp]

theorem intercept_idempotent {header : Header} {host : Host} {hc : HookChain} (w : IntSize)
    (hkeeps : KeepsLimit (hc.rewriter host))
    (hidem : ∀ xml, hc.rewriter host (hc.rewriter host xml) = hc.rewriter host xml)
    (payload : Bytes) :
    intercept w host hc header (intercept w host hc header payload) =
      intercept w host hc header payload := by
  cases hcall : isDomainDefineCall header with
  | false => rw [intercept_of_not_define w host hc payload hcall,
      intercept_of_not_define w host hc payload hcall]
  | true =>
      cases hdecode : decodeXDRString w payload with
      | error err => rw [intercept_of_decode_error host hc header hdecode,
          intercept_of_decode_error host hc header hdecode]
      | ok result =>
          obtain ⟨pad, rest, hsplit⟩ := exists_splits_of_decode hdecode
          have hcoded : DefineArgs.Coded ⟨result.1, rest⟩ payload := ⟨pad, hsplit⟩
          obtain ⟨pad', hsplit'⟩ := intercept_coded w host hc hcall hkeeps hcoded
          -- the second call finds the document already rewritten
          rw [intercept_splits w host hc hcall hsplit']
          exact if_pos (hidem _)

/-- The rewriter of two hook lists one after the other. -/
theorem HookChain.rewriter_append {host : Host} {ha hb hab : HookChain} {a b : List GoString}
    (hha : ha.hooks host = .ok a) (hhb : hb.hooks host = .ok b)
    (hhab : hab.hooks host = .ok (a ++ b)) (hname : hb.hookDomainName = ha.hookDomainName)
    (hname' : hab.hookDomainName = ha.hookDomainName) :
    hab.rewriter host = hb.rewriter host ∘ ha.rewriter host := by
  funext xml
  rw [Function.comp_apply, HookChain.rewriter_of_hooks hhab, HookChain.rewriter_of_hooks hha,
    HookChain.rewriter_of_hooks hhb, hname, hname', runHooks_append]

/-- Stacked rewriting. Two chains in series forward what one chain with the
composed rewriter forwards: byte for byte when the padding is zero, and up to
the padding otherwise. -/
theorem intercept_stacked {header : Header} (hcall : isDomainDefineCall header = true)
    {host₁ host₂ host₃ : Host} {hc₁ hc₂ hc₃ : HookChain} {f g : GoString → GoString}
    (w₁ w₂ w₃ : IntSize) (hf : hc₁.rewriter host₁ = f) (hg : hc₂.rewriter host₂ = g)
    (hgf : hc₃.rewriter host₃ = g ∘ f) (hkeepsf : KeepsLimit f) (hkeepsg : KeepsLimit g) :
    (∀ p s rest, Splits p s (List.replicate (padLen s.length) 0) rest →
      intercept w₂ host₂ hc₂ header (intercept w₁ host₁ hc₁ header p) =
        intercept w₃ host₃ hc₃ header p) ∧
    (∀ p s pad rest, Splits p s pad rest →
      ∃ pad₁ pad₂,
        Splits (intercept w₂ host₂ hc₂ header (intercept w₁ host₁ hc₁ header p))
          (g (f s)) pad₁ rest ∧
        Splits (intercept w₃ host₃ hc₃ header p) (g (f s)) pad₂ rest) ∧
    ((∀ xml, f (f xml) = f xml) → ∀ p,
      intercept w₁ host₁ hc₁ header (intercept w₁ host₁ hc₁ header p) =
        intercept w₁ host₁ hc₁ header p) ∧
    (∀ (host : Host) (ha hb hab : HookChain) (a b : List GoString),
      ha.hooks host = .ok a → hb.hooks host = .ok b → hab.hooks host = .ok (a ++ b) →
      hb.hookDomainName = ha.hookDomainName → hab.hookDomainName = ha.hookDomainName →
      KeepsLimit (ha.rewriter host) → KeepsLimit (hb.rewriter host) →
      ∀ p s rest, Splits p s (List.replicate (padLen s.length) 0) rest →
        intercept w₂ host hb header (intercept w₁ host ha header p) =
          intercept w₃ host hab header p) := by
  subst hf hg
  refine ⟨fun p s rest hsplit => ?_, fun p s pad rest hsplit => ?_,
    fun hidem p => intercept_idempotent w₁ hkeepsf hidem p, ?_⟩
  · rw [show p = DefineArgs.marshal ⟨s, rest⟩ from hsplit.eq_encode rfl]
    exact intercept_marshal_marshal w₁ w₂ w₃ hcall hgf hkeepsf hsplit.length_le
  · have hcoded : DefineArgs.Coded ⟨s, rest⟩ p := ⟨pad, hsplit⟩
    have hkeeps : KeepsLimit (hc₃.rewriter host₃) := by
      intro xml hxml
      rw [hgf]
      exact hkeepsg _ (hkeepsf _ hxml)
    obtain ⟨pad₁, hpad₁⟩ := intercept_coded w₂ host₂ hc₂ hcall hkeepsg
      (intercept_coded w₁ host₁ hc₁ hcall hkeepsf hcoded)
    obtain ⟨pad₂, hpad₂⟩ := intercept_coded w₃ host₃ hc₃ hcall hkeeps hcoded
    rw [hgf] at hpad₂
    exact ⟨pad₁, pad₂, hpad₁, hpad₂⟩
  · intro host ha hb hab a b hha hhb hhab hname hname' hkeepsa _ p s rest hsplit
    rw [show p = DefineArgs.marshal ⟨s, rest⟩ from hsplit.eq_encode rfl]
    exact intercept_marshal_marshal w₁ w₂ w₃ hcall
      (HookChain.rewriter_append hha hhb hhab hname hname') hkeepsa hsplit.length_le

theorem oneHook_rewriter_const {xml : GoString} (hxml : isBlank xml = false) :
    oneHook.rewriter (filterHost fun _ => xml) = fun _ => xml := by
  funext x
  rw [oneHook_rewriter, hxml]
  rfl

/-- Two hooks in series that each put their own document in place. -/
theorem intercept_stacked_const :
    intercept .w64 (filterHost fun _ => lit "<b/>") oneHook defineFlagsCall
        (intercept .w32 (filterHost fun _ => lit "<a/>") oneHook defineFlagsCall
          (encodeXDRString (lit "abc") ++ putUint32 1)) =
      intercept .w64 (filterHost fun _ => lit "<b/>") oneHook defineFlagsCall
        (encodeXDRString (lit "abc") ++ putUint32 1) := by
  have hkeeps : ∀ xml : GoString, xml.length ≤ xdrStringMaxLen → KeepsLimit (fun _ => xml) :=
    fun xml hxml _ _ => hxml
  have hcall : isDomainDefineCall defineFlagsCall = true := by decide
  have ha : isBlank (lit "<a/>") = false := by decide
  have hb : isBlank (lit "<b/>") = false := by decide
  have hstacked := intercept_stacked hcall .w32 .w64 .w64 (oneHook_rewriter_const ha)
    (oneHook_rewriter_const hb) (oneHook_rewriter_const hb) (hkeeps _ (by decide))
    (hkeeps _ (by decide))
  exact hstacked.1 _ _ _ (splits_encodeXDRString (by decide) _)

end DraEnv.Virtinjectd
