import SsrNative.Client.Pipeline
import SsrNative.Client.Relay

/-!
# Handshake — nothing is lost before the client relays

The client reads the answer of the server once, and then relays.  As long as that one read gives it
the whole answer and nothing for the application (`AnswerWhole`), no `ASSERT` on the answer fails, and
everything that the application has sent is on its way to the server or queued until the answer comes
(`handshake_ok`).  An answer that arrives in two reads breaks both (`answer_split_loses_data`).
-/

namespace SsrNative
namespace Client

open Tunnel
open Lib.Transition
open Lib.Segments

/-! ## What the functions of the client write -/

section Writes

variable {κ : Type*} (env : Env κ) {t t' : TunnelCtx (ClientCtx κ)}

/-- The data of the client, and what was written to the server. -/
structure Shows (t : TunnelCtx (ClientCtx κ)) (data : ClientCtx κ) (written : List Bytes) : Prop where
  data_eq : t.data = data
  written_eq : t.outgoing.written = written

variable {data : ClientCtx κ} {written : List Bytes}

theorem Shows.same (h : Shows t data written) (hs : Same t t') : Shows t' data written :=
  ⟨hs.data_eq.trans h.data_eq, (hs.written_eq .outgoing).trans h.written_eq⟩

theorem Shows.setStage (h : Shows t data written) (stage : Stage) :
    Shows (setStage t stage) { data with stage := stage } written := by
  refine ⟨?_, h.written_eq⟩
  rw [← h.data_eq]
  rfl

theorem Shows.setCipher (h : Shows t data written) (cipher : κ) :
    Shows (setCipher t cipher) { data with cipher := cipher } written := by
  refine ⟨?_, h.written_eq⟩
  rw [← h.data_eq]
  rfl

theorem Shows.write (h : Shows t data written) (hf : Flows t) (out : Bytes) :
    Shows (write t .outgoing out) data (written ++ [out]) := by
  obtain ⟨hrelay, hdata⟩ := relay_write hf .outgoing out
  refine ⟨hdata.trans h.data_eq, ?_⟩
  have hserver := congrArg Relay.toServer hrelay
  rw [← h.written_eq]
  exact hserver

/-- A reply to the application is not written to the server. -/
theorem Shows.reply (h : Shows t data written) (hf : Flows t) (reply : Bytes) :
    Shows (Client.write t .incoming reply) data written := by
  obtain ⟨hrelay, hdata⟩ := relay_write hf .incoming reply
  refine ⟨hdata.trans h.data_eq, ?_⟩
  have hserver := congrArg Relay.toServer hrelay
  rw [← h.written_eq]
  exact hserver

/-- The tunnel was shut down, or `P` holds of it. -/
def OrOver (P : TunnelCtx (ClientCtx κ) → Prop) (t : TunnelCtx (ClientCtx κ)) : Prop :=
  t.isTerminated = true ∨ P t

theorem orOver_shutdown (P : TunnelCtx (ClientCtx κ) → Prop) (t : TunnelCtx (ClientCtx κ)) :
    OrOver P (tunnelShutdown t) := Or.inl (tunnelShutdown_isTerminated t)

theorem Shows.refuse (h : Shows t data written) (hf : Flows t) (reply : Bytes) :
    Shows (refuse t reply) { data with stage := .kill } written :=
  (h.reply hf reply).setStage .kill

/-- No data are sent before the connection is there. -/
theorem Shows.connectSsrServer (h : Shows t data written) (hq : Quiet t) :
    OrOver (fun u => ∃ stage, (stage = .kill ∨ stage = .connectSsrServerDone) ∧
      Shows u { data with stage := stage } written) (doConnectSsrServer env t) := by
  unfold doConnectSsrServer
  extract_lets v
  have hv : Shows v data written := h.same (same_check t _)
  have hqv : Quiet v := hq.check _
  split_ifs
  · exact Or.inr ⟨.kill, Or.inl rfl, hv.refuse hqv.flows _⟩
  · exact orOver_shutdown _ v
  · have hconnect : Same v (socketCtxConnect v .outgoing) := same_onOpenSocket v .outgoing fun _ => rfl
    exact Or.inr ⟨.connectSsrServerDone, Or.inr rfl, (hv.same hconnect).setStage _⟩

theorem Shows.resolveAftercare (h : Shows t data written) (hq : Quiet t) :
    OrOver (fun u => ∃ stage, (stage = .kill ∨ stage = .connectSsrServerDone) ∧
      Shows u { data with stage := stage } written) (doResolveSsrServerHostAftercare env t) := by
  unfold doResolveSsrServerHostAftercare
  extract_lets v
  have hv : Shows v data written := h.same (same_check t _)
  have hqv : Quiet v := hq.check _
  split_ifs
  · exact Or.inr ⟨.kill, Or.inl rfl, hv.refuse hqv.flows _⟩
  · exact hv.connectSsrServer env hqv

/-- The target address is encrypted and written, or the connection was refused. -/
theorem Shows.sendAuthPackage (h : Shows t data written) (hq : Quiet t) :
    OrOver (fun u => Shows u { data with stage := .kill } written ∨
      ∃ out, (env.cipher.encrypt data.cipher data.targetAddressPkg).2 = some out ∧
        Shows u
          { data with
            stage := .ssrAuthSent
            cipher := (env.cipher.encrypt data.cipher data.targetAddressPkg).1 }
          (written ++ [out]))
      (doSsrSendAuthPackageToServer env t) := by
  unfold doSsrSendAuthPackageToServer
  extract_lets v r w
  have hv : Shows v data written := h.same (same_check t _)
  have hqv : Quiet v := hq.check _
  have hr : r = env.cipher.encrypt data.cipher data.targetAddressPkg := by
    simp only [r, hv.data_eq]
  have hw : Shows w { data with cipher := r.1 } written := hv.setCipher r.1
  have hqw : Quiet w := hqv.withData _
  split_ifs
  · cases hout : r.2 with
    | none => exact orOver_shutdown _ w
    | some out =>
        rw [hr] at hout hw
        exact Or.inr (Or.inr ⟨out, hout, (hw.write hqw.flows out).setStage .ssrAuthSent⟩)
  · exact Or.inr (Or.inl (hv.refuse hqv.flows _))

/-- What the application has sent before was encrypted and written. -/
def Launched (env : Env κ) (data : ClientCtx κ) (written : List Bytes)
    (t : TunnelCtx (ClientCtx κ)) : Prop :=
  ∃ out, (env.cipher.encrypt data.cipher data.firstClientPkg).2 = some out ∧
    Shows t
      { data with
        stage := .streaming
        cipher := (env.cipher.encrypt data.cipher data.firstClientPkg).1
        firstClientPkg := [] }
      (written ++ [out])

theorem Shows.launchStreaming (h : Shows t data written) (hq : Quiet t) :
    OrOver (Launched env data written) (doLaunchStreaming env t) := by
  unfold doLaunchStreaming
  extract_lets v tmp d w r x
  have hv : Shows v data written := h.same (same_check t _)
  have hqv : Quiet v := hq.check _
  have hr : r = env.cipher.encrypt data.cipher data.firstClientPkg := by
    simp only [r, w, tmp, d, hv.data_eq]
  have hw : Shows w { data with firstClientPkg := [] } written := by
    refine ⟨?_, hv.written_eq⟩
    rw [← hv.data_eq]
  have hx : Shows x { data with firstClientPkg := [], cipher := r.1 } written := hw.setCipher r.1
  have hqx : Quiet x := (hqv.withData _).withData _
  split_ifs
  · exact orOver_shutdown _ v
  · cases hout : r.2 with
    | none => exact orOver_shutdown _ x
    | some out =>
        rw [hr] at hout hx
        have hsent := hx.write hqx.flows out
        have hreads := (same_read (Client.write x .outgoing out) .incoming false).trans
          (same_read _ .outgoing true)
        exact Or.inr ⟨out, hout, (hsent.same hreads).setStage .streaming⟩

theorem Shows.actionAfterAuth (h : Shows t data written) (hq : Quiet t) :
    OrOver (Launched env data written) (doActionAfterAuthServerSuccess env t) := by
  have hset : Shows (Client.setStage t .authCompletionDone)
      { data with stage := .authCompletionDone } written := h.setStage _
  have hqset : Quiet (Client.setStage t .authCompletionDone) := hq.withData _
  exact (hset.same (same_check _ _)).launchStreaming env (hqset.check _)

theorem Shows.waitingServerFeedback (h : Shows t data written) (hq : Quiet t) :
    OrOver (fun u => Shows u { data with stage := .ssrServerFeedbackArrived } written ∨
        env.cipher.needFeedback data.cipher = false ∧ Launched env data written u)
      (doSsrWaitingServerFeedback env t) := by
  unfold doSsrWaitingServerFeedback
  extract_lets v
  have hv : Shows v data written := h.same (same_check t _)
  have hqv : Quiet v := hq.check _
  rw [hv.data_eq]
  split_ifs with _ hneed
  · exact orOver_shutdown _ v
  · exact Or.inr (Or.inl ((hv.same (same_read v .outgoing true)).setStage _))
  · rcases hv.actionAfterAuth env hqv with hterm | hlaunched
    · exact Or.inl hterm
    · exact Or.inr (Or.inr ⟨Bool.eq_false_iff.2 hneed, hlaunched⟩)

/-- The answer is decrypted, and a receipt goes out if there is one. -/
theorem Shows.receiptForFeedback (h : Shows t data written) (hq : Quiet t)
    (hresult : 0 ≤ t.outgoing.result) (buf : Bytes) :
    match (env.cipher.decrypt data.cipher buf).2.feedback with
    | none =>
        (doSsrReceiptForFeedback env t buf).2 = false ∧ Quiet (doSsrReceiptForFeedback env t buf).1 ∧
          Shows (doSsrReceiptForFeedback env t buf).1
            { data with cipher := (env.cipher.decrypt data.cipher buf).1 } written
    | some feedback =>
        (doSsrReceiptForFeedback env t buf).2 = true ∧
          Shows (doSsrReceiptForFeedback env t buf).1
            { data with
              stage := .ssrReceiptToServerSent
              cipher := (env.cipher.decrypt data.cipher buf).1 }
            (written ++ [feedback]) := by
  unfold doSsrReceiptForFeedback
  extract_lets v r w x y
  have hv : Shows v data written := h.same (same_check t _)
  have hqv : Quiet v := hq.check _
  have hneg : ¬v.outgoing.result < 0 := by
    have hsocket : v.socket .outgoing = t.socket .outgoing := check_socket t _ .outgoing
    have hres : v.outgoing.result = t.outgoing.result := congrArg SocketCtx.result hsocket
    omega
  have hr : env.cipher.decrypt data.cipher buf = r := by
    simp only [r, hv.data_eq]
  have hw : Shows w { data with cipher := r.1 } written := hv.setCipher r.1
  have hy : Shows y { data with cipher := r.1 } written :=
    (hw.same (same_check w _)).same (same_check x _)
  have hqw : Quiet w := hqv.withData _
  have hqy : Quiet y := (hqw.check _).check _
  rw [if_neg hneg, hr]
  cases r.2.feedback with
  | none => exact ⟨rfl, hqy, hy⟩
  | some feedback => exact ⟨rfl, (hy.write hqy.flows feedback).setStage _⟩

end Writes

/-! ## What is asserted, and what is not lost -/

section Handshake

variable {α β : Type*} (p : Pipeline α β) (hostIsAddress canAccess connectAccepted : Bool)

def Pipeline.env : Env (PipelineState α β) := ⟨p.cipher, hostIsAddress, canAccess, connectAccepted⟩

/-- What the application has sent while the tunnel was relaying. -/
def appReads (es : List Event) : List Bytes :=
  es.filterMap fun
    | .read .incoming data => if data = [] then none else some data
    | _ => none

/-- The `ASSERT`s on what `tunnel_cipher_client_decrypt` returns: the answer of the server gives no
error and no data, and nothing that is relayed gives feedback. -/
def AssertsOk (t : TunnelCtx (ClientCtx (PipelineState α β))) : Event → Prop
  | .read .outgoing data => t.isTerminated = false → data ≠ [] →
      (t.data.stage = .ssrServerFeedbackArrived →
        (p.clientDecrypt t.data.cipher data).2.buf = some []) ∧
      (t.data.stage = .streaming → (p.clientDecrypt t.data.cipher data).2.feedback = none)
  | _ => True

instance (t : TunnelCtx (ClientCtx (PipelineState α β))) (e : Event) : Decidable (AssertsOk p t e) :=
  match e with
  | .read .outgoing data => inferInstanceAs (Decidable (t.isTerminated = false → data ≠ [] →
      (t.data.stage = .ssrServerFeedbackArrived →
        (p.clientDecrypt t.data.cipher data).2.buf = some []) ∧
      (t.data.stage = .streaming → (p.clientDecrypt t.data.cipher data).2.feedback = none)))
  | .read .incoming _ | .readFailed _ _ | .written _ _ | .connected _ _ | .resolved _ _ | .timeout _
  | .handleClosed _ | .timerClosed _ | .shutdown | .close _ => .isTrue trivial

/-- The answer of the server is read in one piece. -/
def AnswerWhole (t : TunnelCtx (ClientCtx (PipelineState α β))) : Event → Prop
  | .read .outgoing data => t.isTerminated = false → data ≠ [] →
      t.data.stage = .ssrServerFeedbackArrived → p.WholeAnswer t.data.cipher data
  | _ => True

/-- Where everything is that the application has sent: `first` was read before the handshake, and
the tunnel has met `es` since. -/
inductive NoLoss (targetAddress first : Bytes) (es : List Event)
    (t : TunnelCtx (ClientCtx (PipelineState α β))) : Prop
  /-- Nothing was sent, and `first` is kept. -/
  | connecting
      (hstage : t.data.stage = .resolveSsrServerHostDone ∨ t.data.stage = .connectSsrServerDone ∨
        t.data.stage = .kill)
      (hcipher : t.data.cipher = p.create targetAddress)
      (htarget : t.data.targetAddressPkg = targetAddress) (hwritten : t.outgoing.written = [])
      (hfirst : t.data.firstClientPkg = first) (hreads : appReads es = [])
  /-- The target address is written or queued until the answer comes, and `first` is kept. -/
  | greeted (sealed : Bytes)
      (hstage : t.data.stage = .ssrAuthSent ∨ t.data.stage = .ssrServerFeedbackArrived)
      (hunread : t.data.cipher.recvHalf = (p.inner.create targetAddress).2)
      (hsealed : p.Sealed targetAddress [targetAddress] t.data.cipher sealed)
      (hgreeted : p.Greeted sealed t.data.cipher t.outgoing.written.flatten)
      (hfirst : t.data.firstClientPkg = first) (hreads : appReads es = [])
  /-- The target address is written, and `first` is kept. -/
  | answered (sealed : Bytes) (hstage : t.data.stage = .ssrReceiptToServerSent)
      (hsealed : p.Sealed targetAddress [targetAddress] t.data.cipher sealed)
      (hsent : p.Established sealed t.data.cipher t.outgoing.written.flatten)
      (hfirst : t.data.firstClientPkg = first) (hreads : appReads es = [])
  /-- Everything is written. -/
  | streaming (sealed : Bytes) (hstage : t.data.stage = .streaming)
      (hsealed : p.Sealed targetAddress (targetAddress :: first :: appReads es) t.data.cipher sealed)
      (hsent : p.Established sealed t.data.cipher t.outgoing.written.flatten)

variable {p hostIsAddress canAccess connectAccepted}
  {t u : TunnelCtx (ClientCtx (PipelineState α β))} {targetAddress first : Bytes} {es : List Event}
  {e : Event} {side : Side}

theorem appReads_snoc (es : List Event) (e : Event) : appReads (es ++ [e]) = appReads es ++ appReads [e] :=
  List.filterMap_append

theorem NoLoss.same (h : NoLoss p targetAddress first es t) (hs : Same t u) :
    NoLoss p targetAddress first es u := by
  have hwritten : u.outgoing.written = t.outgoing.written := hs.written_eq .outgoing
  cases h with
  | connecting hstage hcipher htarget hw hfirst hreads =>
      rw [← hs.data_eq] at hstage hcipher htarget hfirst
      rw [← hwritten] at hw
      exact .connecting hstage hcipher htarget hw hfirst hreads
  | greeted sealed hstage hunread hsealed hgreeted hfirst hreads =>
      rw [← hs.data_eq] at hstage hunread hsealed hgreeted hfirst
      rw [← hwritten] at hgreeted
      exact .greeted sealed hstage hunread hsealed hgreeted hfirst hreads
  | answered sealed hstage hsealed hsent hfirst hreads =>
      rw [← hs.data_eq] at hstage hsealed hsent hfirst
      rw [← hwritten] at hsent
      exact .answered sealed hstage hsealed hsent hfirst hreads
  | streaming sealed hstage hsealed hsent =>
      rw [← hs.data_eq] at hstage hsealed hsent
      rw [← hwritten] at hsent
      exact .streaming sealed hstage hsealed hsent

/-- An event that reads nothing from the application. -/
theorem NoLoss.snoc (h : NoLoss p targetAddress first es t) (he : appReads [e] = []) :
    NoLoss p targetAddress first (es ++ [e]) t := by
  have heq : appReads (es ++ [e]) = appReads es := by rw [appReads_snoc, he, List.append_nil]
  cases h with
  | connecting hstage hcipher htarget hw hfirst hreads =>
      exact .connecting hstage hcipher htarget hw hfirst (heq.trans hreads)
  | greeted sealed hstage hunread hsealed hgreeted hfirst hreads =>
      exact .greeted sealed hstage hunread hsealed hgreeted hfirst (heq.trans hreads)
  | answered sealed hstage hsealed hsent hfirst hreads =>
      exact .answered sealed hstage hsealed hsent hfirst (heq.trans hreads)
  | streaming sealed hstage hsealed hsent =>
      exact .streaming sealed hstage (by rw [heq]; exact hsealed) hsent

section Stages

variable {data : ClientCtx (PipelineState α β)} {written : List Bytes} {sealed : Bytes}

/-- The first call of the pipeline. -/
theorem encrypt_target {out : Bytes}
    (hout : (p.clientEncrypt (p.create targetAddress) targetAddress).2 = some out) :
    ∃ sealed, p.Sealed targetAddress [targetAddress]
        (p.clientEncrypt (p.create targetAddress) targetAddress).1 sealed ∧
      p.Greeted sealed (p.clientEncrypt (p.create targetAddress) targetAddress).1 out ∧
      (p.clientEncrypt (p.create targetAddress) targetAddress).1.recvHalf =
        (p.inner.create targetAddress).2 := by
  obtain ⟨sealed, hinner, hencode, hstate⟩ := Pipeline.clientEncrypt_some hout
  have hhalves := Pipeline.obfsEncode_halves (p := p)
    { p.create targetAddress with
      sendHalf := (p.inner.encrypt (p.create targetAddress).sendHalf targetAddress).1 } sealed
  refine ⟨sealed, ?_, ?_, ?_⟩
  · rw [hstate]
    have hsnoc := (Pipeline.Sealed.nil (p := p) targetAddress).snoc hinner hhalves.1
    exact hsnoc
  · rw [hstate, ← hencode]
    exact Pipeline.obfsEncode_fresh _ sealed
  · rw [hstate, hhalves.2]
    rfl

/-- One more input behind the answer of the server. -/
theorem encrypt_established {inputs : List Bytes} {s : PipelineState α β} {w buf out : Bytes}
    (hsealed : p.Sealed targetAddress inputs s sealed) (hsent : p.Established sealed s w)
    (hout : (p.clientEncrypt s buf).2 = some out) :
    ∃ more, p.Sealed targetAddress (inputs ++ [buf]) (p.clientEncrypt s buf).1 more ∧
      p.Established more (p.clientEncrypt s buf).1 (w ++ out) := by
  obtain ⟨out', hinner, hencode, hstate⟩ := Pipeline.clientEncrypt_some hout
  have hhalves := Pipeline.obfsEncode_halves (p := p)
    { s with sendHalf := (p.inner.encrypt s.sendHalf buf).1 } out'
  refine ⟨sealed ++ out', ?_, ?_⟩
  · rw [hstate]
    exact hsealed.snoc hinner hhalves.1
  · rw [hstate, ← hencode]
    exact hsent.encode _ out'

theorem Launched.noLoss
    (h : Launched (p.env hostIsAddress canAccess connectAccepted) data written u)
    (hsealed : p.Sealed targetAddress [targetAddress] data.cipher sealed)
    (hsent : p.Established sealed data.cipher written.flatten) (hfirst : data.firstClientPkg = first)
    (hreads : appReads es = []) : NoLoss p targetAddress first es u := by
  obtain ⟨out, hout, hshows⟩ := h
  obtain ⟨more, hsealed', hsent'⟩ := encrypt_established hsealed hsent hout
  refine .streaming more ?_ ?_ ?_
  · rw [hshows.data_eq]
  · rw [hshows.data_eq, hreads, ← hfirst]
    exact hsealed'
  · rw [hshows.data_eq, hshows.written_eq, List.flatten_append, List.flatten_singleton]
    exact hsent'

end Stages

/-! ## Steps of the handshake -/

/-- A receive half that has received nothing gives nothing for nothing. -/
def Pipeline.SilentStart (p : Pipeline α β) (targetAddress : Bytes) : Prop :=
  (p.inner.decrypt (p.inner.encrypt (p.inner.create targetAddress).1 targetAddress).1
    (p.inner.create targetAddress).2 []).2 = some []

/-- What an event makes of the client's tunnel. -/
def clientStep (p : Pipeline α β) (hostIsAddress canAccess connectAccepted : Bool)
    (t : TunnelCtx (ClientCtx (PipelineState α β))) (e : Event) :
    TunnelCtx (ClientCtx (PipelineState α β)) :=
  step (handlers (p.env hostIsAddress canAccess connectAccepted)) t e

theorem noLoss_connecting {stage : Stage} (hstage : stage = .kill ∨ stage = .connectSsrServerDone)
    {data : ClientCtx (PipelineState α β)} (hshows : Shows u { data with stage := stage } [])
    (hcipher : data.cipher = p.create targetAddress) (htarget : data.targetAddressPkg = targetAddress)
    (hfirst : data.firstClientPkg = first) (hreads : appReads es = []) :
    NoLoss p targetAddress first es u := by
  refine .connecting ?_ ?_ ?_ hshows.written_eq ?_ hreads
  · rw [hshows.data_eq]
    rcases hstage with rfl | rfl
    · exact Or.inr (Or.inr rfl)
    · exact Or.inr (Or.inl rfl)
  · rw [hshows.data_eq]
    exact hcipher
  · rw [hshows.data_eq]
    exact htarget
  · rw [hshows.data_eq]
    exact hfirst

theorem NoLoss.lookupDone (hn : NoLoss p targetAddress first es t) (hw : Waits t side .lookup)
    (hst : t.data.stage = .resolveSsrServerHostDone) :
    OrOver (NoLoss p targetAddress first es)
      (clientStep p hostIsAddress canAccess connectAccepted t (.resolved side true)) := by
  obtain ⟨v, hq, hs, heq⟩ :=
    hw.lookupDone (p.env hostIsAddress canAccess connectAccepted) hst
  cases hn with
  | connecting _ hcipher htarget hwritten hfirst hreads =>
      have hshows : Shows v t.data [] := (Shows.mk rfl hwritten).same hs
      rw [clientStep, heq]
      rcases hshows.resolveAftercare (p.env hostIsAddress canAccess connectAccepted) hq with
        hterm | ⟨stage, hstage, hshows'⟩
      · exact Or.inl hterm
      · exact Or.inr (noLoss_connecting hstage hshows' hcipher htarget hfirst hreads)
  | greeted _ hstage => rw [hst] at hstage; simp at hstage
  | answered _ hstage => rw [hst] at hstage; cases hstage
  | streaming _ hstage => rw [hst] at hstage; cases hstage

theorem NoLoss.connectDone (hn : NoLoss p targetAddress first es t) (hw : Waits t side .connect)
    (hst : t.data.stage = .connectSsrServerDone) :
    OrOver (NoLoss p targetAddress first es)
      (clientStep p hostIsAddress canAccess connectAccepted t (.connected side true)) := by
  obtain ⟨v, hq, hs, heq⟩ :=
    hw.connectDone (p.env hostIsAddress canAccess connectAccepted) hst
  cases hn with
  | connecting _ hcipher htarget hwritten hfirst hreads =>
      have hshows : Shows v t.data [] := (Shows.mk rfl hwritten).same hs
      rw [clientStep, heq]
      rcases hshows.sendAuthPackage (p.env hostIsAddress canAccess connectAccepted) hq with
        hterm | hshows' | ⟨out, hout, hshows'⟩
      · exact Or.inl hterm
      · exact Or.inr (noLoss_connecting (Or.inl rfl) hshows' hcipher htarget hfirst hreads)
      · rw [hcipher, htarget] at hout hshows'
        obtain ⟨sealed, hsealed, hgreeted, hunread⟩ := encrypt_target hout
        refine Or.inr (.greeted sealed ?_ ?_ ?_ ?_ ?_ hreads) <;> rw [hshows'.data_eq]
        · exact Or.inl rfl
        · exact hunread
        · exact hsealed
        · rw [hshows'.written_eq, List.nil_append, List.flatten_singleton]
          exact hgreeted
        · exact hfirst
  | greeted _ hstage => rw [hst] at hstage; simp at hstage
  | answered _ hstage => rw [hst] at hstage; cases hstage
  | streaming _ hstage => rw [hst] at hstage; cases hstage

/-- The first message is written; the tunnel waits for the answer, or needs none. -/
theorem NoLoss.authWritten (hn : NoLoss p targetAddress first es t) (hw : Waits t .outgoing .write)
    (hst : t.data.stage = .ssrAuthSent) :
    OrOver (NoLoss p targetAddress first es)
      (clientStep p hostIsAddress canAccess connectAccepted t (.written .outgoing true)) := by
  obtain ⟨v, hq, hs, heq⟩ :=
    hw.authWritten (p.env hostIsAddress canAccess connectAccepted) hst
  cases hn with
  | connecting hstage => rw [hst] at hstage; simp at hstage
  | greeted sealed _ hunread hsealed hgreeted hfirst hreads =>
      have hshows : Shows v t.data t.outgoing.written := (Shows.mk rfl rfl).same hs
      rw [clientStep, heq]
      rcases hshows.waitingServerFeedback (p.env hostIsAddress canAccess connectAccepted) hq
        with hterm | hshows' | ⟨hneed, hlaunched⟩
      · exact Or.inl hterm
      · refine Or.inr (.greeted sealed ?_ ?_ ?_ ?_ ?_ hreads) <;> rw [hshows'.data_eq]
        · exact Or.inr rfl
        · exact hunread
        · exact hsealed
        · rw [hshows'.written_eq]
          exact hgreeted
        · exact hfirst
      · -- without tls1.2_ticket nothing was queued
        have htls : p.tls = none := by
          have hneed' : (p.inner.needFeedback || p.tls.isSome) = false := hneed
          rw [Bool.or_eq_false_iff] at hneed'
          exact Option.isNone_iff_eq_none.1 (by rw [← Option.not_isSome, hneed'.2]; rfl)
        have hsent : p.Established sealed t.data.cipher t.outgoing.written.flatten := by
          unfold Pipeline.Greeted at hgreeted
          unfold Pipeline.Established
          rw [htls] at hgreeted ⊢
          exact hgreeted
        exact Or.inr (hlaunched.noLoss hsealed hsent hfirst hreads)
  | answered _ hstage => rw [hst] at hstage; cases hstage
  | streaming _ hstage => rw [hst] at hstage; cases hstage

theorem NoLoss.receiptWritten (hn : NoLoss p targetAddress first es t)
    (hw : Waits t .outgoing .write) (hst : t.data.stage = .ssrReceiptToServerSent) :
    OrOver (NoLoss p targetAddress first es)
      (clientStep p hostIsAddress canAccess connectAccepted t (.written .outgoing true)) := by
  obtain ⟨v, hq, hs, heq⟩ :=
    hw.receiptWritten (p.env hostIsAddress canAccess connectAccepted) hst
  cases hn with
  | connecting hstage => rw [hst] at hstage; simp at hstage
  | greeted _ hstage => rw [hst] at hstage; simp at hstage
  | answered sealed _ hsealed hsent hfirst hreads =>
      have hshows : Shows v t.data t.outgoing.written := (Shows.mk rfl rfl).same hs
      rw [clientStep, heq]
      rcases hshows.actionAfterAuth (p.env hostIsAddress canAccess connectAccepted) hq with
        hterm | hlaunched
      · exact Or.inl hterm
      · exact Or.inr (hlaunched.noLoss hsealed hsent hfirst hreads)
  | streaming _ hstage => rw [hst] at hstage; cases hstage

variable (hostIsAddress canAccess connectAccepted) in
/-- The answer of the server, read in one piece. -/
theorem NoLoss.answerRead (hn : NoLoss p targetAddress first es t) (hw : Waits t .outgoing .read)
    (hst : t.data.stage = .ssrServerFeedbackArrived) (hnil : p.SilentStart targetAddress)
    {buf : Bytes} (hbuf : buf ≠ []) (hwhole : p.WholeAnswer t.data.cipher buf) :
    (p.clientDecrypt t.data.cipher buf).2.buf = some [] ∧
      OrOver (NoLoss p targetAddress first es)
        (clientStep p hostIsAddress canAccess connectAccepted t (.read .outgoing buf)) := by
  obtain ⟨v, w, hq, hs, hresult, hweq, heq⟩ :=
    hw.answerRead (p.env hostIsAddress canAccess connectAccepted) hst hbuf
  cases hn with
  | connecting hstage => rw [hst] at hstage; simp at hstage
  | greeted sealed _ hunread hsealed hgreeted hfirst hreads =>
      have hsilent : (p.inner.decrypt t.data.cipher.sendHalf t.data.cipher.recvHalf []).2 =
          some [] := by
        rw [hsealed.sendHalf_eq, hunread]
        exact hnil
      obtain ⟨hempty, hhalf, hsent⟩ := hgreeted.answer hsilent hwhole
      refine ⟨hempty, ?_⟩
      have hsealed' := hsealed.of_sendHalf hhalf
      have hshows : Shows v t.data t.outgoing.written := (Shows.mk rfl rfl).same hs
      have hreceipt := hshows.receiptForFeedback (p.env hostIsAddress canAccess connectAccepted)
        hq hresult buf
      have hdec : (p.env hostIsAddress canAccess connectAccepted).cipher.decrypt t.data.cipher buf =
          p.clientDecrypt t.data.cipher buf := rfl
      rw [hdec] at hreceipt
      have hw' : OrOver (NoLoss p targetAddress first es) w := by
        -- with a feedback the tunnel answers before it launches, without one it launches at once
        cases hfeed : (p.clientDecrypt t.data.cipher buf).2.feedback with
        | none =>
            rw [hfeed] at hreceipt hsent
            obtain ⟨hflag, hquiet, hshows'⟩ := hreceipt
            rw [hweq, if_pos hflag]
            rw [Option.getD_none, List.append_nil] at hsent
            rcases hshows'.actionAfterAuth
              (p.env hostIsAddress canAccess connectAccepted) hquiet with hterm | hlaunched
            · exact Or.inl hterm
            · exact Or.inr (hlaunched.noLoss hsealed' hsent hfirst hreads)
        | some feedback =>
            rw [hfeed] at hreceipt hsent
            obtain ⟨hflag, hshows'⟩ := hreceipt
            rw [hweq, if_neg (by rw [hflag]; exact Bool.noConfusion)]
            refine Or.inr (.answered sealed ?_ ?_ ?_ ?_ hreads) <;> rw [hshows'.data_eq]
            · exact hsealed'
            · rw [hshows'.written_eq, List.flatten_append, List.flatten_singleton]
              exact hsent
            · exact hfirst
      rw [clientStep, heq]
      split_ifs with hterm
      · exact hw'
      · exact Or.inr ((hw'.resolve_left hterm).same (same_onOpenSocket w .outgoing fun _ => rfl))
      · exact hw'
  | answered _ hstage => rw [hst] at hstage; cases hstage
  | streaming _ hstage => rw [hst] at hstage; cases hstage

/-! ## Runs -/

theorem ShutDown.isTerminated_eq {t' : TunnelCtx (ClientCtx (PipelineState α β))}
    (h : ShutDown t t') : t'.isTerminated = true := by
  obtain ⟨v, -, hv⟩ := h
  exact hv.isTerminated_eq.trans (tunnelShutdown_isTerminated v)

/-- A read while the answer of the server is awaited. -/
theorem NoLoss.answerEvent (hn : NoLoss p targetAddress first es t) (hw : Waits t .outgoing .read)
    (hst : t.data.stage = .ssrServerFeedbackArrived) (hnil : p.SilentStart targetAddress) (data : Bytes)
    (hwhole : AnswerWhole p t (.read .outgoing data)) :
    AssertsOk p t (.read .outgoing data) ∧ OrOver (NoLoss p targetAddress first es)
      (clientStep p hostIsAddress canAccess connectAccepted t (.read .outgoing data)) := by
  by_cases hdata : data = []
  · refine ⟨fun _ hne => absurd hdata hne, Or.inr ?_⟩
    have hset : Same t (Tunnel.setResult t .outgoing data.length) := same_setSocket rfl
    have heq : clientStep p hostIsAddress canAccess connectAccepted t (.read .outgoing data) =
        Tunnel.setResult t .outgoing data.length := if_pos hdata
    rw [heq]
    exact hn.same hset
  · obtain ⟨hempty, hover⟩ := hn.answerRead hostIsAddress canAccess connectAccepted hw hst hnil hdata
      (hwhole hw.isTerminated_eq hdata hst)
    refine ⟨fun _ _ => ⟨fun _ => hempty, fun h => ?_⟩, hover⟩
    rw [hst] at h
    cases h

/-- A completed write that the stage waits for. -/
theorem NoLoss.writeDone (hn : NoLoss p targetAddress first es t) (hw : Waits t side .write)
    (hstage : awaited t.data.stage = some (side, .write)) :
    OrOver (NoLoss p targetAddress first es)
      (clientStep p hostIsAddress canAccess connectAccepted t (.written side true)) := by
  have hst : (t.data.stage = .ssrAuthSent ∧ side = .outgoing) ∨
      (t.data.stage = .ssrReceiptToServerSent ∧ side = .outgoing) ∨ t.data.stage = .kill := by
    cases h : t.data.stage <;> rw [h] at hstage <;> cases hstage <;> simp
  rcases hst with ⟨hst, rfl⟩ | ⟨hst, rfl⟩ | hst
  · exact hn.authWritten hw hst
  · exact hn.receiptWritten hw hst
  · -- the last write before the end
    refine Or.inl ?_
    obtain ⟨v, hv, -, heq⟩ := hw.written_eq (handlers (p.env hostIsAddress canAccess connectAccepted))
    rw [clientStep, heq]
    change (tunnelSsrDispatcher (p.env hostIsAddress canAccess connectAccepted) v side
      []).isTerminated = true
    unfold tunnelSsrDispatcher
    rw [hv.data_eq, hst]
    exact tunnelShutdown_isTerminated _

theorem NoLoss.waiting (hn : NoLoss p targetAddress first es t) {r : Request} (hw : Waits t side r)
    (hstage : awaited t.data.stage = some (side, r)) (hocc : Occurs t e)
    (hwhole : AnswerWhole p t e) (hnil : p.SilentStart targetAddress) :
    AssertsOk p t e ∧ OrOver (NoLoss p targetAddress first (es ++ [e]))
      (clientStep p hostIsAddress canAccess connectAccepted t e) := by
  have hopen := hw.isTerminated_eq
  rcases hw.event hocc with ⟨s, rfl⟩ | rfl | hcompletes
  · exact ⟨trivial, Or.inl (timeout_shutDown hopen s).isTerminated_eq⟩
  · exact ⟨trivial, Or.inl (tunnelShutdown_isTerminated t)⟩
  · -- what is awaited comes; in no stage before the last is it data from the application
    have hsnoc : ∀ {v : TunnelCtx (ClientCtx (PipelineState α β))}, appReads [e] = [] →
        OrOver (NoLoss p targetAddress first es) v →
        OrOver (NoLoss p targetAddress first (es ++ [e])) v :=
      fun he hv => hv.imp id fun h => h.snoc he
    cases r with
    | read =>
        obtain ⟨hst, rfl⟩ : t.data.stage = .ssrServerFeedbackArrived ∧ side = .outgoing := by
          cases h : t.data.stage <;> rw [h] at hstage <;> cases hstage
          exact ⟨rfl, rfl⟩
        rcases hcompletes with ⟨data, rfl⟩ | ⟨eof, rfl⟩
        · obtain ⟨hasserts, hover⟩ := hn.answerEvent hw hst hnil data hwhole
          exact ⟨hasserts, hsnoc rfl hover⟩
        · exact ⟨trivial, Or.inl (readFailed_shutDown hopen .outgoing eof).isTerminated_eq⟩
    | write =>
        obtain ⟨ok, rfl⟩ := hcompletes
        refine ⟨trivial, ?_⟩
        cases ok with
        | false => exact Or.inl (writeFailed_shutDown hopen side).isTerminated_eq
        | true => exact hsnoc rfl (hn.writeDone hw hstage)
    | connect =>
        obtain ⟨ok, rfl⟩ := hcompletes
        refine ⟨trivial, ?_⟩
        cases ok with
        | false => exact Or.inl (connectFailed_shutDown hopen side).isTerminated_eq
        | true =>
            have hst : t.data.stage = .connectSsrServerDone := by
              cases h : t.data.stage <;> rw [h] at hstage <;> cases hstage
            exact hsnoc rfl (hn.connectDone hw hst)
    | lookup =>
        obtain ⟨ok, rfl⟩ := hcompletes
        refine ⟨trivial, ?_⟩
        cases ok with
        | false => exact Or.inl (lookupFailed_shutDown hopen side).isTerminated_eq
        | true =>
            have hst : t.data.stage = .resolveSsrServerHostDone := by
              cases h : t.data.stage <;> rw [h] at hstage <;> cases hstage
            exact hsnoc rfl (hn.lookupDone hw hst)

theorem NoLoss.established (hn : NoLoss p targetAddress first es t)
    (hst : t.data.stage = .streaming) :
    ∃ sealed, p.Sealed targetAddress (targetAddress :: first :: appReads es) t.data.cipher sealed ∧
      p.Established sealed t.data.cipher t.outgoing.written.flatten := by
  cases hn with
  | connecting hstage => rw [hst] at hstage; simp at hstage
  | greeted _ hstage => rw [hst] at hstage; simp at hstage
  | answered _ hstage => rw [hst] at hstage; cases hstage
  | streaming sealed hstage hsealed hsent => exact ⟨sealed, hsealed, hsent⟩

variable (hostIsAddress canAccess connectAccepted) in
/-- What the relay makes of data from the application. -/
theorem carry_incoming (t : TunnelCtx (ClientCtx (PipelineState α β))) (data : Bytes) :
    (relay t).carry (p.env hostIsAddress canAccess connectAccepted) .incoming data =
      match (p.clientEncrypt t.data.cipher data).2 with
      | none => { relay t with cipher := (p.clientEncrypt t.data.cipher data).1, closed := true }
      | some out =>
          { relay t with
            cipher := (p.clientEncrypt t.data.cipher data).1
            toServer := (relay t).toServer ++ [out] } := by
  have hextract : Relay.extract (p.env hostIsAddress canAccess connectAccepted) (relay t).cipher data
      .incoming = p.clientEncrypt t.data.cipher data := rfl
  rw [Relay.carry, hextract]
  rcases p.clientEncrypt t.data.cipher data with ⟨cipher, _ | out⟩
  · rfl
  · rfl

variable (hostIsAddress canAccess connectAccepted) in
/-- Data from the server changes the cipher and nothing that was sent to it. -/
theorem carry_outgoing (t : TunnelCtx (ClientCtx (PipelineState α β))) (data : Bytes) :
    ((relay t).carry (p.env hostIsAddress canAccess connectAccepted) .outgoing data).cipher =
        (p.clientDecrypt t.data.cipher data).1 ∧
      ((relay t).carry (p.env hostIsAddress canAccess connectAccepted) .outgoing data).toServer =
        t.outgoing.written := by
  rw [Relay.carry]
  rcases hextract : Relay.extract (p.env hostIsAddress canAccess connectAccepted) (relay t).cipher data
    .outgoing with ⟨cipher, out⟩
  have hcipher : (p.clientDecrypt t.data.cipher data).1 = cipher := congrArg Prod.fst hextract
  rw [hcipher]
  cases out with
  | none => exact ⟨rfl, rfl⟩
  | some out => exact ⟨rfl, rfl⟩

/-- Data from a side, while the tunnel relays. -/
theorem NoLoss.carry (hn : NoLoss p targetAddress first es t) (hst : t.data.stage = .streaming)
    {data : Bytes} (hdata : data ≠ []) (hr : Relays u) (hopen : u.isTerminated = false)
    (hrelay : relay u = (relay t).carry (p.env hostIsAddress canAccess connectAccepted) side data) :
    NoLoss p targetAddress first (es ++ [.read side data]) u := by
  obtain ⟨sealed, hsealed, hsent⟩ := hn.established hst
  have hclosed : (relay u).closed = false := hopen
  cases side with
  | incoming =>
      have hreads : appReads (es ++ [.read .incoming data]) = appReads es ++ [data] := by
        rw [appReads_snoc]
        simp [appReads, hdata]
      rw [carry_incoming] at hrelay
      cases hout : (p.clientEncrypt t.data.cipher data).2 with
      | none =>
          -- the cipher refuses it, and the tunnel would be shut down
          rw [hout] at hrelay
          rw [hrelay] at hclosed
          cases hclosed
      | some out =>
          rw [hout] at hrelay
          have hcipher : u.data.cipher = (p.clientEncrypt t.data.cipher data).1 :=
            congrArg Relay.cipher hrelay
          have hwritten : u.outgoing.written = t.outgoing.written ++ [out] :=
            congrArg Relay.toServer hrelay
          obtain ⟨more, hsealed', hsent'⟩ := encrypt_established hsealed hsent hout
          refine .streaming more hr.stage_eq ?_ ?_
          · rw [hcipher, hreads]
            exact hsealed'
          · rw [hcipher, hwritten, List.flatten_append, List.flatten_singleton]
            exact hsent'
  | outgoing =>
      obtain ⟨-, hhalf, hsent'⟩ := hsent.decrypt data
      have hparts := carry_outgoing (p := p) hostIsAddress canAccess connectAccepted t data
      rw [← hrelay] at hparts
      have hcipher : u.data.cipher = (p.clientDecrypt t.data.cipher data).1 := hparts.1
      have hwritten : u.outgoing.written = t.outgoing.written := hparts.2
      have hreads : appReads (es ++ [.read .outgoing data]) = appReads es := by
        rw [appReads_snoc]
        exact List.append_nil _
      refine .streaming sealed hr.stage_eq ?_ ?_
      · rw [hreads, hcipher]
        exact hsealed.of_sendHalf hhalf
      · rw [hcipher, hwritten]
        exact hsent'

theorem NoLoss.streams (hn : NoLoss p targetAddress first es t) (hst : t.data.stage = .streaming)
    (hopen : t.isTerminated = false) (hf : Flows t) (hocc : Occurs t e) :
    AssertsOk p t e ∧ OrOver (NoLoss p targetAddress first (es ++ [e]))
      (clientStep p hostIsAddress canAccess connectAccepted t e) := by
  obtain ⟨sealed, hsealed, hsent⟩ := hn.established hst
  obtain ⟨hr, hrelay⟩ := relays_step (p.env hostIsAddress canAccess connectAccepted)
    ⟨hst, fun _ => hf⟩ hocc
  change Relays (clientStep p hostIsAddress canAccess connectAccepted t e) at hr
  change relay (clientStep p hostIsAddress canAccess connectAccepted t e) = _ at hrelay
  set u := clientStep p hostIsAddress canAccess connectAccepted t e with hu
  have hclosed : ¬(relay t).closed = true := by
    change ¬t.isTerminated = true
    rw [hopen]
    exact Bool.false_ne_true
  unfold Relay.step at hrelay
  rw [if_neg hclosed] at hrelay
  -- nothing is relayed
  have hstay : relay u = relay t → appReads [e] = [] →
      OrOver (NoLoss p targetAddress first (es ++ [e])) u := by
    intro heq he
    have hcipher : u.data.cipher = t.data.cipher := congrArg Relay.cipher heq
    have hwritten : u.outgoing.written = t.outgoing.written := congrArg Relay.toServer heq
    refine Or.inr (NoLoss.snoc (.streaming sealed hr.stage_eq ?_ ?_) he)
    · rw [hcipher]
      exact hsealed
    · rw [hcipher, hwritten]
      exact hsent
  have hover : relay u = { relay t with closed := true } →
      OrOver (NoLoss p targetAddress first (es ++ [e])) u := by
    intro heq
    exact Or.inl (congrArg Relay.closed heq)
  cases e with
  | read side data =>
      refine ⟨?_, ?_⟩
      · cases side with
        | incoming => trivial
        | outgoing =>
            intro _ _
            refine ⟨fun h => ?_, fun _ => (hsent.decrypt data).1⟩
            rw [hst] at h
            cases h
      · by_cases hdata : data = []
        · refine hstay (hrelay.trans (if_pos hdata)) ?_
          cases side with
          | incoming => simp [appReads, hdata]
          | outgoing => rfl
        · cases hterm : u.isTerminated with
          | true => exact Or.inl hterm
          | false => exact Or.inr (hn.carry hst hdata hr hterm (hrelay.trans (if_neg hdata)))
  | written side ok =>
      cases ok with
      | true => exact ⟨trivial, hstay hrelay rfl⟩
      | false => exact ⟨trivial, hover hrelay⟩
  | readFailed side eof => exact ⟨trivial, hover hrelay⟩
  | timeout side => exact ⟨trivial, hover hrelay⟩
  | shutdown => exact ⟨trivial, hover hrelay⟩
  | connected side ok => exact ⟨trivial, hstay hrelay rfl⟩
  | resolved side ok => exact ⟨trivial, hstay hrelay rfl⟩
  | handleClosed side => exact ⟨trivial, hstay hrelay rfl⟩
  | timerClosed side => exact ⟨trivial, hstay hrelay rfl⟩
  | close side => exact ⟨trivial, hstay hrelay rfl⟩

variable (hostIsAddress canAccess connectAccepted) in
/-- Nothing is lost, or the tunnel was shut down. -/
theorem noLoss_step (hp : Phase t) (hn : t.isTerminated = false → NoLoss p targetAddress first es t)
    (hocc : Occurs t e) (hwhole : AnswerWhole p t e) (hnil : p.SilentStart targetAddress) :
    AssertsOk p t e ∧ OrOver (NoLoss p targetAddress first (es ++ [e]))
      (clientStep p hostIsAddress canAccess connectAccepted t e) := by
  cases hp with
  | terminated h =>
      refine ⟨?_, Or.inl ((same_step h e).isTerminated_eq.trans h)⟩
      cases e with
      | read s data =>
          cases s with
          | incoming => trivial
          | outgoing =>
              intro hopen
              rw [h] at hopen
              cases hopen
      | _ => trivial
  | waiting h hw => exact (hn hw.isTerminated_eq).waiting hw h hocc hwhole hnil
  | streaming h hf => exact (hn hf.isTerminated_eq).streams h hf.isTerminated_eq hf hocc

/-- The client when it starts to connect. -/
theorem noLoss_start (hq : Quiet t) (hwritten : t.outgoing.written = [])
    (hfirst : t.data.firstClientPkg = first) :
    OrOver (NoLoss p targetAddress first [])
      (doCommonConnetRemoteServer (p.env hostIsAddress canAccess connectAccepted) t targetAddress) := by
  unfold doCommonConnetRemoteServer
  extract_lets d v
  have hv : Shows v v.data [] := ⟨rfl, hwritten⟩
  have hqv : Quiet v := hq.withData _
  split_ifs
  · have hlookup : Same v (socketCtxGetaddrinfo v .outgoing) := same_onOpenSocket v .outgoing fun _ => rfl
    have hshows := (hv.same hlookup).setStage .resolveSsrServerHostDone
    refine Or.inr (.connecting ?_ ?_ ?_ hshows.written_eq ?_ rfl)
    · exact Or.inl (congrArg ClientCtx.stage hshows.data_eq)
    · exact congrArg ClientCtx.cipher hshows.data_eq
    · exact congrArg ClientCtx.targetAddressPkg hshows.data_eq
    · exact (congrArg ClientCtx.firstClientPkg hshows.data_eq).trans hfirst
  · rcases hv.connectSsrServer (p.env hostIsAddress canAccess connectAccepted) hqv with
      hterm | ⟨stage, hstage, hshows⟩
    · exact Or.inl hterm
    · exact Or.inr (noLoss_connecting hstage hshows rfl rfl hfirst rfl)

variable (p hostIsAddress canAccess connectAccepted targetAddress) in
/-- The client after `es`, from the end of the SOCKS5 negotiation on. -/
def clientTunnel (t : TunnelCtx (ClientCtx (PipelineState α β))) (es : List Event) :
    TunnelCtx (ClientCtx (PipelineState α β)) :=
  clientAfter (p.env hostIsAddress canAccess connectAccepted) t targetAddress es

/-- Nothing is lost over a run in which the answer of the server is read in one piece. -/
theorem noLoss_run (hnil : p.SilentStart targetAddress) (es past : List Event) (hp : Phase u)
    (hn : OrOver (NoLoss p targetAddress first past) u)
    (hrun : Legal Occurs (clientStep p hostIsAddress canAccess connectAccepted) u es)
    (hwhole : Legal (AnswerWhole p) (clientStep p hostIsAddress canAccess connectAccepted) u es) :
    Legal (AssertsOk p) (clientStep p hostIsAddress canAccess connectAccepted) u es ∧
      OrOver (NoLoss p targetAddress first (past ++ es))
        (es.foldl (clientStep p hostIsAddress canAccess connectAccepted) u) := by
  induction es generalizing u past with
  | nil =>
      rw [List.append_nil]
      exact ⟨trivial, hn⟩
  | cons e es ih =>
      have hopen : u.isTerminated = false → NoLoss p targetAddress first past u := by
        intro hopen
        refine hn.resolve_left ?_
        rw [hopen]
        exact Bool.false_ne_true
      obtain ⟨hasserts, hover⟩ := noLoss_step hostIsAddress canAccess connectAccepted hp hopen hrun.1 hwhole.1 hnil
      obtain ⟨hlegal, hend⟩ := ih (past ++ [e]) (phase_step hp hrun.1) hover hrun.2 hwhole.2
      refine ⟨⟨hasserts, hlegal⟩, ?_⟩
      rw [List.append_assoc] at hend
      exact hend

/-- However reads and completed writes are interleaved: when the answer of the server is read in one
piece and carries nothing for the application, every `ASSERT` on it holds, and what the application
has sent is written to the server or queued until the answer comes. -/
theorem handshake_ok (hq : Quiet t) (hwritten : t.outgoing.written = [])
    (hnil : p.SilentStart targetAddress) (es : List Event)
    (hrun : Legal Occurs (clientStep p hostIsAddress canAccess connectAccepted)
      (clientTunnel p hostIsAddress canAccess connectAccepted targetAddress t []) es)
    (hwhole : Legal (AnswerWhole p) (clientStep p hostIsAddress canAccess connectAccepted)
      (clientTunnel p hostIsAddress canAccess connectAccepted targetAddress t []) es) :
    Legal (AssertsOk p) (clientStep p hostIsAddress canAccess connectAccepted)
        (clientTunnel p hostIsAddress canAccess connectAccepted targetAddress t []) es ∧
      OrOver (NoLoss p targetAddress t.data.firstClientPkg es)
        (clientTunnel p hostIsAddress canAccess connectAccepted targetAddress t es) :=
  noLoss_run hnil es [] (hq.commonConnetRemoteServer targetAddress) (noLoss_start hq hwritten rfl) hrun
    hwhole

/-! ### A run -/

open Obfs.Tls12TicketAuth

/-- No protocol and no cipher, behind tls1.2_ticket. -/
def samplePipeline : Pipeline Unit Unit where
  inner := ⟨fun _ => ((), ()), fun _ data => ((), some data), fun _ _ data => ((), some data), false⟩
  tls := some ⟨hmacSha1, sampleInfo, false, fun _ => sampleDraws⟩

def sampleTunnel : TunnelCtx (ClientCtx (PipelineState Unit Unit)) :=
  tunnelInitialize ⟨.kill, samplePipeline.create [], [], [7, 8]⟩ false true

/-- What the server answers to the hello of `samplePipeline`. -/
def sampleReply : Bytes :=
  serverHello hmacSha1 sampleInfo sampleInfo.gData.localClientId sampleServerDraws

def sampleEvents : List Event :=
  [.connected .outgoing true, .written .outgoing true, .read .outgoing sampleReply,
    .written .outgoing true, .read .incoming [9]]

theorem handshake_ok_sample :
    Legal (AssertsOk samplePipeline) (clientStep samplePipeline true true true)
        (clientTunnel samplePipeline true true true [3, 1] sampleTunnel []) sampleEvents ∧
      OrOver (NoLoss samplePipeline [3, 1] [7, 8] sampleEvents)
        (clientTunnel samplePipeline true true true [3, 1] sampleTunnel sampleEvents) := by
  have hsilent : samplePipeline.SilentStart [3, 1] := rfl
  have hunfinished : Pipeline.Unfinished [] :=
    ⟨[0], packData [0], ⟨by decide, by decide⟩, by decide, rfl⟩
  refine handshake_ok (quiet_start _) rfl hsilent sampleEvents (by decide +kernel) ?_
  refine ⟨trivial, trivial, fun _ _ _ => ?_, trivial, trivial, trivial⟩
  exact ⟨sampleServerDraws, [], [], (List.append_nil _).symm, by simp, hunfinished, rfl⟩

/-- The answer in two reads: the client relays after the first, and what the second would have sent
is thrown away together with the queue. -/
theorem answer_split_loses_data :
    let t := clientTunnel samplePipeline true true true [3, 1] sampleTunnel []
    let es : List Event :=
      [.connected .outgoing true, .written .outgoing true, .read .outgoing (sampleReply.take 75),
        .read .outgoing (sampleReply.drop 75)]
    let u := clientTunnel samplePipeline true true true [3, 1] sampleTunnel es
    samplePipeline.cipher.needFeedback t.data.cipher = true ∧
      Legal Occurs (clientStep samplePipeline true true true) t es ∧
      ¬Legal (AssertsOk samplePipeline) (clientStep samplePipeline true true true) t es ∧
      u.isTerminated = false ∧ u.data.firstClientPkg = [] ∧
      u.outgoing.written.flatten = clientHello hmacSha1 sampleInfo sampleDraws ∧
      u.data.cipher.obfs.dataSentBuffer = [] := by
  decide +kernel

end Handshake

end Client
end SsrNative
