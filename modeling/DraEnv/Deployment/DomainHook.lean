import DraEnv.Dramachine.Outcome
import DraEnv.Virtinjectd.Panic

/-!
The proxy with the hook it is made for.

`virtinjectd --hook dramachine.py` is how the environment gets its worker
nodes: a client defines a domain, the proxy hands its XML to the Python
script, and libvirtd is sent what the script prints. Here the models of
the two programs meet. On the wire a define call carries bytes, and for
these the script is the function `rewriteXml`, whatever the XML library
does; `upstream_domains` carries it through frames, connections and the
daemon.

What a call means is the element tree a parser finds in its bytes
(`domainOf`), and on trees the script is `rewriteDomain`. The two agree
for the domains that the library prints (`Printed`) and reads back as
they were (`ReadBack`). These are conditions on one domain, since no
library meets them for all.
-/

namespace DraEnv.Dramachine

open DraEnv.GoStd DraEnv.PyStd

/-- `main`. The arguments are compared as the bytes they are passed as, since
`sys.argv` decodes them without loss. -/
def main (et : XmlCodec) (argv : List GoString) (stdin : PyBytes) : StreamResult :=
  match argv with
  | _ :: _ :: operation :: subOperation :: _ :: _ =>
      if operation ≠ lit "prepare" ∨ subOperation ≠ lit "begin" then ⟨0, [], []⟩
      else processXmlStream et stdin
  | _ => processXmlStream et stdin

/-- What `process_xml_stream` does to a domain. -/
def rewriteDomain (root : Element) : Element := if isWorker root then (mutate root).1 else root

theorem mutate_flag_iff (root : Element) : (mutate root).2 = true ↔ ¬ Settled root := by
  rw [mutate_establishes.exact, Ne, mutate_eq_self_iff]

theorem rewriteDomain_of_unchanged {root : Element} (h : ¬ NamedWorker root ∨ Settled root) :
    rewriteDomain root = root := by
  rw [← isWorker_iff, ← mutate_eq_self_iff] at h
  rw [rewriteDomain]
  split
  · rename_i hworker
    exact h.resolve_left (not_not.mpr hworker)
  · rfl

theorem rewriteDomain_of_worker {root : Element} (h : NamedWorker root) :
    rewriteDomain root = (mutate root).1 := if_pos ((isWorker_iff root).mpr h)

/-- A worker that comes out of the script is settled. -/
theorem settled_rewriteDomain {root : Element} (h : NamedWorker root) :
    Settled (rewriteDomain root) := by
  rw [rewriteDomain_of_worker h, ← mutate_eq_self_iff, mutate_establishes.settled root]

end DraEnv.Dramachine

namespace DraEnv.Deployment

open DraEnv.GoStd DraEnv.PyStd DraEnv.Foundation DraEnv.Virtinjectd DraEnv.Dramachine

/-- What `cmd.Run` makes of a program's end. -/
def commandOutput (result : StreamResult) : Except GoError GoString :=
  if result.code = 0 then .ok result.stdout else .error (.msg s!"exit status {result.code}")

/-- The script is the only hook of the chain, and it answers in time. -/
def Deployed (et : XmlCodec) (host : Host) (hc : HookChain) : Prop :=
  ∃ hookPath path, hc.hooks host = .ok [hookPath] ∧ host.commandPath hookPath = some path ∧
    ∀ argv stdin, host.exec (host.file path) argv stdin =
      commandOutput (Dramachine.main et argv stdin)

/-- The document a domain is defined by after the hook: what the script prints for
it, and the document as it was where that is blank or the script fails. -/
def rewriteXml (et : XmlCodec) (xml : PyBytes) : PyBytes :=
  match et.fromstring xml with
  | .error _ => xml
  | .ok root =>
      if isWorker root && (mutate root).2 then
        match et.write (mutate root).1 with
        | .error _ => xml
        | .ok text => if isBlank text then xml else text
      else xml

/-- The library prints the domain if it has to be changed. It raises an exception
on one that is nested too deeply. -/
def Printed (et : XmlCodec) (root : Element) : Prop :=
  NamedWorker root → ¬ Settled root →
    ∃ text, et.write (mutate root).1 = .ok text ∧ isBlank text = false

/-- What the library prints for such a domain it reads back, and a call can carry
it. A carriage return in a text comes back as a newline, and a document at the
limit grows beyond it. -/
def ReadBack (et : XmlCodec) (root : Element) : Prop :=
  NamedWorker root → ¬ Settled root → ∀ text, et.write (mutate root).1 = .ok text →
    et.fromstring text = .ok (mutate root).1 ∧ text.length ≤ xdrStringMaxLen

/-! ### The chain -/

theorem main_hookArgv (et : XmlCodec) (hookPath domainName stdin : GoString) :
    Dramachine.main et (hookArgv hookPath domainName) stdin = processXmlStream et stdin := by
  simp [Dramachine.main, hookArgv]

/-- The script prints the rewritten document, or nothing to be taken for one. -/
theorem processXmlStream_output (et : XmlCodec) (xml : PyBytes) :
    (match commandOutput (processXmlStream et xml) with
      | .error _ => xml
      | .ok output => if isBlank output then xml else output) = rewriteXml et xml := by
  by_cases hnil : xml = []
  · subst hnil
    simp [processXmlStream, commandOutput, rewriteXml, et.fromstring_nil]
  simp only [processXmlStream, if_neg hnil, rewriteXml]
  cases hparse : et.fromstring xml with
  | error err => simp [commandOutput]
  | ok root =>
      cases hworker : isWorker root with
      | false => simp [hworker, commandOutput]
      | true =>
          cases hflag : (mutate root).2 with
          | false => simp [hworker, hflag, commandOutput]
          | true =>
              cases hwrite : et.write (mutate root).1 with
              | error err => simp [hworker, hflag, hwrite, commandOutput]
              | ok text => simp [hworker, hflag, hwrite, commandOutput]

theorem rewriter_deployed {et : XmlCodec} {host : Host} {hc : HookChain}
    (hdeployed : Deployed et host hc) (xml : GoString) :
    hc.rewriter host xml = rewriteXml et xml := by
  obtain ⟨hookPath, path, hhooks, hpath, hexec⟩ := hdeployed
  obtain ⟨-, hnext⟩ := runHook_found hc.hookDomainName xml hpath
  rw [HookChain.rewriter_of_hooks hhooks, runHooks, runHooks, hnext,
    ← processXmlStream_output]
  simp only [Exec.effect, hexec, main_hookArgv]
  cases commandOutput (processXmlStream et xml) with
  | error err => rfl
  | ok output =>
      cases hblank : isBlank output with
      | true => simp [hblank]
      | false => simp [hblank]

theorem rewriteXml_of_unchanged {et : XmlCodec} {xml : PyBytes} {root : Element}
    (hparse : et.fromstring xml = .ok root) (h : ¬ NamedWorker root ∨ Settled root) :
    rewriteXml et xml = xml := by
  have hflags : (isWorker root && (mutate root).2) = false := by
    rw [Bool.and_eq_false_iff, Bool.eq_false_iff, Bool.eq_false_iff, Ne, isWorker_iff, Ne,
      mutate_flag_iff, not_not]
    exact h
  simp only [rewriteXml, hparse, hflags]
  rfl

theorem rewriteXml_of_changed {et : XmlCodec} {xml text : PyBytes} {root : Element}
    (hparse : et.fromstring xml = .ok root) (hworker : NamedWorker root)
    (hchanged : ¬ Settled root) (hwrite : et.write (mutate root).1 = .ok text) :
    rewriteXml et xml = if isBlank text then xml else text := by
  simp only [rewriteXml, hparse, hwrite, (isWorker_iff root).mpr hworker,
    (mutate_flag_iff root).mpr hchanged, Bool.and_self, if_true]

/-- A document is left alone, or replaced by what is printed for a worker that is
not settled. -/
theorem rewriteXml_cases (et : XmlCodec) (xml : PyBytes) :
    rewriteXml et xml = xml ∨
      ∃ root, et.fromstring xml = .ok root ∧ NamedWorker root ∧ ¬ Settled root ∧
        et.write (mutate root).1 = .ok (rewriteXml et xml) := by
  cases hparse : et.fromstring xml with
  | error err => exact Or.inl (by simp only [rewriteXml, hparse])
  | ok root =>
      by_cases hunchanged : ¬ NamedWorker root ∨ Settled root
      · exact Or.inl (rewriteXml_of_unchanged hparse hunchanged)
      rw [not_or, not_not] at hunchanged
      obtain ⟨hworker, hchanged⟩ := hunchanged
      cases hwrite : et.write (mutate root).1 with
      | error err =>
          left
          simp only [rewriteXml, hparse, hwrite, ite_self]
      | ok text =>
          rw [rewriteXml_of_changed hparse hworker hchanged hwrite]
          cases isBlank text with
          | true => exact Or.inl rfl
          | false => exact Or.inr ⟨root, rfl, hworker, hchanged, hwrite⟩

theorem rewriteXml_length {et : XmlCodec} {xml : PyBytes} (hlen : xml.length ≤ xdrStringMaxLen)
    (hread : ∀ root, et.fromstring xml = .ok root → ReadBack et root) :
    (rewriteXml et xml).length ≤ xdrStringMaxLen := by
  obtain hsame | ⟨root, hparse, hworker, hchanged, hwrite⟩ := rewriteXml_cases et xml
  · rw [hsame]
    exact hlen
  · exact (hread root hparse hworker hchanged _ hwrite).2

/-- The rewritten document stands for the rewritten domain. -/
theorem fromstring_rewriteXml {et : XmlCodec} {xml : PyBytes} {root : Element}
    (hparse : et.fromstring xml = .ok root) (hprinted : Printed et root)
    (hread : ReadBack et root) :
    et.fromstring (rewriteXml et xml) = .ok (rewriteDomain root) := by
  by_cases hunchanged : ¬ NamedWorker root ∨ Settled root
  · rw [rewriteXml_of_unchanged hparse hunchanged, rewriteDomain_of_unchanged hunchanged, hparse]
  rw [not_or, not_not] at hunchanged
  obtain ⟨hworker, hchanged⟩ := hunchanged
  obtain ⟨text, hwrite, hblank⟩ := hprinted hworker hchanged
  rw [rewriteXml_of_changed hparse hworker hchanged hwrite, hblank, if_neg (by decide),
    rewriteDomain_of_worker hworker]
  exact (hread hworker hchanged text hwrite).1

theorem rewriteXml_rewriteXml {et : XmlCodec} {xml : PyBytes}
    (hread : ∀ root, et.fromstring xml = .ok root → ReadBack et root) :
    rewriteXml et (rewriteXml et xml) = rewriteXml et xml := by
  obtain hsame | ⟨root, hparse, hworker, hchanged, hwrite⟩ := rewriteXml_cases et xml
  · rw [hsame, hsame]
  · have hagain := (hread root hparse hworker hchanged _ hwrite).1
    refine rewriteXml_of_unchanged hagain (Or.inr ?_)
    rw [← rewriteDomain_of_worker hworker]
    exact settled_rewriteDomain hworker

/-! ### One call -/

/-- The domain a define call carries, if its payload decodes and parses. -/
def domainOf (et : XmlCodec) (w : IntSize) (payload : Bytes) : Option Element :=
  match decodeXDRString w payload with
  | .error _ => none
  | .ok (xml, _) => (et.fromstring xml).toOption

theorem domainOf_splits {et : XmlCodec} {payload xml pad rest : Bytes} {root : Element}
    (w : IntSize) (h : Splits payload xml pad rest) (hparse : et.fromstring xml = .ok root) :
    domainOf et w payload = some root := by
  simp only [domainOf, h.decode w, hparse, Except.toOption]

/-- The payload with the document the script leaves in it. -/
def rewritePayload (et : XmlCodec) (payload xml rest : Bytes) : Bytes :=
  if rewriteXml et xml = xml then payload else encodeXDRString (rewriteXml et xml) ++ rest

theorem intercept_deployed {et : XmlCodec} {host : Host} {hc : HookChain} {header : Header}
    {payload xml pad rest : Bytes} (w : IntSize) (hdeployed : Deployed et host hc)
    (hcall : isDomainDefineCall header = true) (hsplit : Splits payload xml pad rest) :
    intercept w host hc header payload = rewritePayload et payload xml rest := by
  rw [intercept_splits w host hc hcall hsplit, rewriter_deployed hdeployed, rewritePayload]

/-- The payload carries the rewritten document, if it is short enough. -/
theorem splits_rewritePayload {et : XmlCodec} {payload xml pad rest : Bytes}
    (hsplit : Splits payload xml pad rest)
    (hlen : (rewriteXml et xml).length ≤ xdrStringMaxLen) :
    ∃ pad', Splits (rewritePayload et payload xml rest) (rewriteXml et xml) pad' rest := by
  rw [rewritePayload]
  split
  · rename_i hsame
    rw [hsame]
    exact ⟨pad, hsplit⟩
  · exact ⟨_, splits_encodeXDRString hlen rest⟩

theorem intercept_bare {payload : Bytes} (w : IntSize) (host : Host) (hc : HookChain)
    (header : Header) (hbare : ∀ xml pad rest, ¬ Splits payload xml pad rest) :
    intercept w host hc header payload = payload := by
  cases hdecode : decodeXDRString w payload with
  | error err => exact intercept_of_decode_error host hc header hdecode
  | ok result =>
      obtain ⟨pad, rest, hsplit⟩ := exists_splits_of_decode hdecode
      exact absurd hsplit (hbare _ _ _)

/-! ### The stream -/

/-- What libvirtd is sent for a frame of the client: the frame itself if it defines
no domain or has no document in it; otherwise a call with the same header and
the document of the script, and for a domain that is printed and read back, the
rewritten domain. -/
structure Rewrites (et : XmlCodec) (w : IntSize) (fr out : Bytes) : Prop where
  other : isDomainDefineCall (headerOf fr) = false → out = fr
  bare : (∀ xml pad rest, ¬ Splits (payloadOf fr) xml pad rest) → out = fr
  document : isDomainDefineCall (headerOf fr) = true →
    ∀ {xml pad rest : Bytes}, Splits (payloadOf fr) xml pad rest →
      (rewriteXml et xml).length ≤ 2 ^ 31 →
      out = frame (headerOf fr) (rewritePayload et (payloadOf fr) xml rest)
  domain : isDomainDefineCall (headerOf fr) = true →
    ∀ {xml pad rest : Bytes} {root : Element}, Splits (payloadOf fr) xml pad rest →
      et.fromstring xml = .ok root → Printed et root → ReadBack et root →
      headerOf out = headerOf fr ∧ domainOf et w (payloadOf out) = some (rewriteDomain root) ∧
        (NamedWorker root → Settled (rewriteDomain root))

theorem rewrites_image {et : XmlCodec} {host : Host} {hc : HookChain} {w : IntSize}
    (hdeployed : Deployed et host hc) {fr out : Bytes} (hfr : IsFrame fr)
    (himage : image (intercept w host hc) fr = some out) : Rewrites et w fr out := by
  have hunchanged : intercept w host hc (headerOf fr) (payloadOf fr) = payloadOf fr → out = fr :=
    fun h => Option.some.inj (himage.symm.trans (image_of_unchanged hfr h))
  have hdocument : isDomainDefineCall (headerOf fr) = true →
      ∀ {xml pad rest : Bytes}, Splits (payloadOf fr) xml pad rest →
        (rewriteXml et xml).length ≤ 2 ^ 31 →
        out = frame (headerOf fr) (rewritePayload et (payloadOf fr) xml rest) := by
    intro hcall xml pad rest hsplit hlen
    obtain ⟨h, p, hfits, rfl⟩ := hfr.exists_message
    rw [headerOf_frame] at hcall
    rw [payloadOf_frame] at hsplit
    have hlt := intercept_lt w host hc h hfits fun hsplit' => by
      obtain ⟨rfl, -⟩ := hsplit.unique hsplit'
      rw [rewriter_deployed hdeployed]
      exact hlen
    rw [image_frame, messageBuffer_eq h hlt, Option.some.injEq] at himage
    rw [← himage, headerOf_frame, payloadOf_frame, intercept_deployed w hdeployed hcall hsplit]
  refine ⟨fun hother => hunchanged (intercept_of_not_define w host hc _ hother),
    fun hbare => hunchanged (intercept_bare w host hc _ hbare), hdocument, ?_⟩
  intro hcall xml pad rest root hsplit hparse hprinted hread
  have hlen : (rewriteXml et xml).length ≤ xdrStringMaxLen := by
    refine rewriteXml_length hsplit.length_le fun root' hroot' => ?_
    rw [← Except.ok.inj (hparse.symm.trans hroot')]
    exact hread
  obtain ⟨pad', hsplit'⟩ := splits_rewritePayload hsplit hlen
  have hsmall : xdrStringMaxLen ≤ 2 ^ 31 := by decide
  rw [hdocument hcall hsplit (hlen.trans hsmall), headerOf_frame, payloadOf_frame]
  exact ⟨rfl, domainOf_splits w hsplit' (fromstring_rewriteXml hparse hprinted hread),
    settled_rewriteDomain⟩

theorem rewrites_emits {et : XmlCodec} {host : Host} {hc : HookChain} {w : IntSize}
    (hdeployed : Deployed et host hc) {frs : List Bytes} {out : Bytes}
    (hframes : ∀ fr ∈ frs, IsFrame fr) (hemits : Emits (intercept w host hc) frs out) :
    ∃ outs, List.Forall₂ (Rewrites et w) frs outs ∧ out = outs.flatten := by
  obtain ⟨outs, hmap, rfl⟩ := hemits
  refine ⟨outs, ?_, rfl⟩
  induction frs generalizing outs with
  | nil =>
      rw [List.map_nil] at hmap
      rw [List.map_eq_nil_iff.mp hmap.symm]
      exact .nil
  | cons fr frs ih =>
      cases outs with
      | nil => simp at hmap
      | cons out outs =>
          rw [List.map_cons, List.map_cons, List.cons.injEq] at hmap
          obtain ⟨hhead, htail⟩ := List.forall_mem_cons.mp hframes
          exact .cons (rewrites_image hdeployed hhead hmap.1) (ih htail outs hmap.2)

/-- A direction to libvirtd has sent, frame by frame, what the client sent with
every document rewritten. Only a write that failed leaves part of one more
frame behind. -/
def Rewritten (et : XmlCodec) (w : IntSize) (l : Link) : Prop :=
  ∃ frs outs part, wire.Leads frs l.sent ∧ l.delivered = outs.flatten ++ part ∧
    List.Forall₂ (Rewrites et w) frs outs ∧
    (part = [] ∨ l.writeFailed = true ∧
      ∃ fr out, wire.Leads (frs ++ [fr]) l.sent ∧ Rewrites et w fr out ∧ part <+: out)

/-- Whatever the clients of the daemon do, in any interleaving, libvirtd is told to
define the rewritten domains. -/
theorem upstream_domains {et : XmlCodec} {host : Host} {hc : HookChain} {w : IntSize}
    (hdeployed : Deployed et host hc) {d : DaemonState}
    (hd : (daemon (processors w host hc)).Reachable d) {s : ConnState} (hs : s ∈ d.conns) :
    Rewritten et w (s.link .clientToServer) := by
  have hgood := links_good ((reachable_independent hd).conns s hs) .clientToServer
  obtain ⟨frs, hleads, hemits⟩ | ⟨hfailed, frs, fr, out, buf, part, hleads, hemits, hbuf, hpart,
    hdelivered⟩ := hgood.delivered
  · obtain ⟨outs, hrewrites, hout⟩ := rewrites_emits hdeployed hleads.1 hemits
    exact ⟨frs, outs, [], hleads, by rw [hout, List.append_nil], hrewrites, Or.inl rfl⟩
  · have hframes : ∀ f ∈ frs, IsFrame f := fun f hf => hleads.1 f (by simp [hf])
    have hfront : frs.flatten <+: (s.link .clientToServer).sent := by
      refine List.IsPrefix.trans ?_ hleads.2
      rw [List.flatten_append]
      exact List.prefix_append _ _
    obtain ⟨outs, hrewrites, hout⟩ := rewrites_emits hdeployed hframes hemits
    have hnext := rewrites_image hdeployed (hleads.1 fr (by simp)) hbuf
    exact ⟨frs, outs, part, ⟨hframes, hfront⟩, by rw [hdelivered, hout], hrewrites,
      Or.inr ⟨hfailed, fr, buf, hleads, hnext, hpart⟩⟩

/-! ### A worker that is defined -/

/-- A machine on which every file is the script. -/
def scriptHost (et : XmlCodec) : Host :=
  { filterHost id with exec := fun _ argv stdin => commandOutput (Dramachine.main et argv stdin) }

theorem deployed_scriptHost (et : XmlCodec) : Deployed et (scriptHost et) oneHook :=
  ⟨lit "/hook", lit "/hook", rfl, if_pos (by decide), fun _ _ => rfl⟩

theorem namedWorker_workerDomain : NamedWorker workerDomain := ⟨_, _, rfl, rfl, by decide⟩

theorem not_settled_workerDomain : ¬ Settled workerDomain :=
  (mutate_flag_iff workerDomain).mp (by decide +kernel)

theorem isBlank_rewrittenXml : isBlank rewrittenXml = false := by
  have hspace : spaceLen rewrittenXml = 0 := by decide +kernel
  exact isBlank_of_spaceLen rewrittenXml_ne_nil hspace

theorem printed_workerDomain : Printed workerCodec workerDomain := fun _ _ =>
  ⟨rewrittenXml, rfl, isBlank_rewrittenXml⟩

theorem readBack_workerDomain : ReadBack workerCodec workerDomain := by
  rintro - - text htext
  have hlen : rewrittenXml.length ≤ xdrStringMaxLen := by decide +kernel
  rw [← Except.ok.inj htext]
  exact ⟨workerCodec_rewrittenXml, hlen⟩

theorem rewriteXml_workerXml : rewriteXml workerCodec workerXml = rewrittenXml := by
  have hwrite : workerCodec.write (mutate workerDomain).1 = .ok rewrittenXml := rfl
  rw [rewriteXml_of_changed workerCodec_workerXml namedWorker_workerDomain
    not_settled_workerDomain hwrite, isBlank_rewrittenXml, if_neg (by decide)]

/-- The direction to libvirtd can be in this state while both connections are open. -/
def Serves (processor : Direction → Header → Bytes → Bytes) (l : Link) : Prop :=
  ∃ s, (connection processor).Reachable s ∧ s.Alive ∧ (∀ peer, s.isOpen peer = true) ∧
    s.link .clientToServer = l

section

variable {processor : Direction → Header → Bytes → Bytes} {l l' : Link}

theorem serves_sent (bs : Bytes) : Serves processor ⟨bs, bs, .reading [], [], false⟩ :=
  ⟨_, ⟨_, rfl, run_sent processor bs⟩, by intro d; cases d <;> exact nofun,
    by intro peer; cases peer <;> rfl, rfl⟩

theorem Serves.run (h : Serves processor l)
    (hrun : Relation.ReflTransGen (LinkStep (processor .clientToServer) true true) l l')
    (hl : l'.phase ≠ .panicked) : Serves processor l' := by
  obtain ⟨s, ⟨s₀, hinit, hs⟩, halive, hopen, rfl⟩ := h
  have hforward : (connection processor).Run s (s.setLink .clientToServer l') :=
    run_setLink halive (by rw [hopen, hopen]; exact hrun)
  exact ⟨_, ⟨s₀, hinit, hs.trans hforward⟩, halive.setLink hl, hopen,
    ConnState.setLink_link_self _ _ _⟩

/-- A client can get any frame through that the processor keeps sendable, as the
first one of its connection. -/
theorem serves_relayed {h : Header} {p : Bytes} (hp : Fits p)
    (hsendable : lengthPrefixSize + headerSize + (processor .clientToServer h p).length < 2 ^ 32) :
    Serves processor
      ⟨frame h p, [], .reading [], frame h (processor .clientToServer h p), false⟩ := by
  have hprocessed : Serves processor
      ⟨frame h p, [], .writing h (processor .clientToServer h p), [], false⟩ :=
    (serves_sent (frame h p)).run (link_processes hp rfl (List.append_nil _).symm) (by simp)
  have hwrite : writeMessage Sink.reliable [] h (processor .clientToServer h p) =
      (.returned none, frame h (processor .clientToServer h p)) := by
    simp only [writeMessage, messageBuffer_eq h hsendable, Sink.write_reliable, List.nil_append]
  have hstep : LinkStep (processor .clientToServer) true true
      ⟨frame h p, [], .writing h (processor .clientToServer h p), [], false⟩
      ⟨frame h p, [], afterWrite (.returned none), frame h (processor .clientToServer h p),
        Outcome.failed (.returned none)⟩ :=
    .write rfl hwrite fun hclosed => by cases hclosed
  exact hprocessed.run (.single hstep) (by simp)

end

/-- One client defines a worker, and what arrives is the rewritten document. -/
theorem upstream_domains_worker :
    (Printed workerCodec workerDomain ∧ ReadBack workerCodec workerDomain) ∧
    ∃ d s, (daemon (processors .w64 (scriptHost workerCodec) oneHook)).Reachable d ∧
      s ∈ d.conns ∧
      (s.link .clientToServer).delivered =
        frame defineFlagsCall (encodeXDRString rewrittenXml ++ putUint32 0) ∧
      Rewritten workerCodec .w64 (s.link .clientToServer) := by
  refine ⟨⟨printed_workerDomain, readBack_workerDomain⟩, ?_⟩
  have hdeployed := deployed_scriptHost workerCodec
  have hlen : workerXml.length ≤ xdrStringMaxLen := by decide +kernel
  have hfits : Fits (encodeXDRString workerXml ++ putUint32 0) := by decide +kernel
  have hpatched : processors .w64 (scriptHost workerCodec) oneHook .clientToServer defineFlagsCall
      (encodeXDRString workerXml ++ putUint32 0) = encodeXDRString rewrittenXml ++ putUint32 0 := by
    rw [processors, intercept_splits .w64 _ _ rfl (splits_encodeXDRString hlen _),
      rewriter_deployed hdeployed, rewriteXml_workerXml, if_neg rewrittenXml_ne_workerXml]
  have hsendable : lengthPrefixSize + headerSize +
      (encodeXDRString rewrittenXml ++ putUint32 0).length < 2 ^ 32 := by decide +kernel
  obtain ⟨s, hs, -, -, hlink⟩ := serves_relayed hfits (hpatched ▸ hsendable)
  have hconns : ∀ t ∈ [s], (connection (processors .w64 (scriptHost workerCodec) oneHook)).Reachable
      t := List.forall_mem_singleton.mpr hs
  have hruns := System.interleaved_of_runs (runs_replicate hconns) (alive_replicate _)
    (List.pairwise_singleton _ s)
  have hstage : Stage.accepting ≠ .exited := by simp
  have hd := reachable_handled hstage (reachable_accepted _ _) hruns
  refine ⟨_, s, hd, List.mem_singleton_self s, by rw [hlink, hpatched], ?_⟩
  exact upstream_domains hdeployed hd (List.mem_singleton_self s)

/-! ### Once is enough -/

/-- A message that has gone through such a proxy goes through another one, or through
the same again, as it is, if the domain in it is read back as it was printed. -/
theorem intercept_resubmitted {et : XmlCodec} {host host' : Host} {hc hc' : HookChain}
    (w w' : IntSize) (hdeployed : Deployed et host hc) (hdeployed' : Deployed et host' hc')
    (header : Header) {payload : Bytes}
    (hread : ∀ xml pad rest root, Splits payload xml pad rest → et.fromstring xml = .ok root →
      ReadBack et root) :
    intercept w' host' hc' header (intercept w host hc header payload) =
      intercept w host hc header payload := by
  by_cases hbare : ∀ xml pad rest, ¬ Splits payload xml pad rest
  · rw [intercept_bare w host hc header hbare, intercept_bare w' host' hc' header hbare]
  push Not at hbare
  obtain ⟨xml, pad, rest, hsplit⟩ := hbare
  cases hcall : isDomainDefineCall header with
  | false =>
      rw [intercept_of_not_define w host hc payload hcall,
        intercept_of_not_define w' host' hc' payload hcall]
  | true =>
      have hdomain : ∀ root, et.fromstring xml = .ok root → ReadBack et root := fun root =>
        hread xml pad rest root hsplit
      obtain ⟨pad', hsplit'⟩ :=
        splits_rewritePayload hsplit (rewriteXml_length hsplit.length_le hdomain)
      rw [intercept_deployed w hdeployed hcall hsplit,
        intercept_deployed w' hdeployed' hcall hsplit']
      exact if_pos (rewriteXml_rewriteXml hdomain)

theorem intercept_resubmitted_worker :
    intercept .w32 (scriptHost workerCodec) oneHook defineFlagsCall
        (intercept .w64 (scriptHost workerCodec) oneHook defineFlagsCall
          (encodeXDRString workerXml ++ putUint32 0)) =
      intercept .w64 (scriptHost workerCodec) oneHook defineFlagsCall
        (encodeXDRString workerXml ++ putUint32 0) := by
  have hlen : workerXml.length ≤ xdrStringMaxLen := by decide +kernel
  refine intercept_resubmitted .w64 .w32 (deployed_scriptHost workerCodec)
    (deployed_scriptHost workerCodec) defineFlagsCall ?_
  intro xml pad rest root hsplit hparse
  obtain ⟨rfl, -⟩ := (splits_encodeXDRString hlen (putUint32 0)).unique hsplit
  rw [← Except.ok.inj (workerCodec_workerXml.symm.trans hparse)]
  exact readBack_workerDomain

end DraEnv.Deployment
