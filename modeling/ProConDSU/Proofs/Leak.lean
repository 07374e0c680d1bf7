import ProConDSU.Proofs.DataReply

/-!
# What of the stack a reply shows

No branch of the builders sets a MAC address, so the replies that carry one carry six bytes of the
stack: every data reply and every motors reply, and every info reply with a connected controller.
The others are the same whatever the stack holds.
-/

namespace ProConDSU

namespace DsuServer

variable (srv : DsuServer) {buf : ByteBuffer}

/-- Two runs of the handler that return reply the same, whatever their stacks held. -/
def StackFree (buf : ByteBuffer) (conn : Connection) : Prop :=
  ∀ (stack₁ stack₂ : Stack) (r₁ r₂ : ByteBuffer) (s₁ s₂ : DsuServer),
    srv.handleMessage stack₁ buf conn = .ok (r₁, s₁) →
    srv.handleMessage stack₂ buf conn = .ok (r₂, s₂) → r₁ = r₂

/-- The requests whose reply carries a MAC address. -/
def ShowsMac : Request → Prop
  | .data _ | .motors _ => True
  | .info _ => srv.controllerManager.controllers ≠ []
  | .dropped | .faults | .version | .rumble => False

theorem reply_congr {stack₁ stack₂ : Stack} (type : MessageType) (body : ByteBuffer) :
    srv.reply stack₁ type body = srv.reply stack₂ type body := rfl

theorem answer_congr {r : Request} (h : ¬ srv.ShowsMac r) (stack₁ stack₂ : Stack) :
    srv.answer stack₁ r = srv.answer stack₂ r := by
  cases r with
  | dropped => rfl
  | faults => rfl
  | version => rfl
  | info slots =>
    have hnone : srv.controllerManager.controllers = [] := not_not.1 h
    simp [answer, buildControllersInfoResponse, ControllerManager.getConnectedControllerCount,
      hnone]
  | data => exact absurd trivial h
  | motors => exact absurd trivial h
  | rumble => rfl

theorem bytesAt_mac (i : ControllerInfoShared) (rest : ByteBuffer) :
    bytesAt (i.serialize ++ rest) 4 6 = i.macAddress.toList := by
  rw [ControllerInfoShared.serialize_eq]
  simp only [List.append_assoc]
  exact bytesAt_append rfl (by simp)

theorem buildControllerDataResponse_mac (stack : Stack) (i : ℕ) :
    (srv.buildControllerDataResponse stack i).1.info.macAddress = stack.cdrs.info.macAddress := by
  rcases Nat.lt_or_ge i srv.controllerManager.controllers.length with hlt | hge
  · rw [buildControllerDataResponse_eq stack srv hlt, (copyStatus_keeps stack srv _).1]
    rfl
  · rw [buildControllerDataResponse_disconnected stack srv hge]
    rfl

/-- The reply's body from its fifth byte to its tenth is the stack's. -/
theorem answer_mac {r : Request} (h : srv.ShowsMac r) (b : UInt8) :
    ∃ body srv', srv.answer (.filled b) r = .ok (some body, srv')
      ∧ bytesAt body 4 6 = List.replicate 6 b := by
  cases r with
  | info slots =>
    have hpos : srv.controllerManager.getConnectedControllerCount ≠ 0 := by
      simpa [ShowsMac, ControllerManager.getConnectedControllerCount] using h
    obtain ⟨n, hn⟩ := Nat.exists_eq_succ_of_ne_zero hpos
    refine ⟨_, _, rfl, ?_⟩
    rw [ControllersInfoResponse.serialize_eq_flatMap, buildControllersInfoResponse, hn,
      List.range_succ_eq_map, List.map_cons, List.flatMap_cons, ControllersInfoResponse.entryBytes,
      List.append_assoc, bytesAt_mac]
    rfl
  | data id =>
    refine ⟨_, _, rfl, ?_⟩
    rw [ControllersDataResponse.serialize_eq, bytesAt_mac, buildControllerDataResponse_mac]
    rfl
  | motors id =>
    refine ⟨_, _, rfl, ?_⟩
    rw [ControllersMotorsResponse.serialize, bytesAt_mac]
    rfl
  | dropped => exact h.elim
  | faults => exact h.elim
  | version => exact h.elim
  | rumble => exact h.elim

/-- A reply is free of the stack just when it carries no MAC address. -/
theorem stackFree_iff (hbuf : buf.length ≤ maxSize) (conn : Connection) :
    srv.StackFree buf conn ↔ ¬ srv.ShowsMac (requestOf buf) := by
  refine ⟨?_, ?_⟩
  · intro hfree hmac
    obtain ⟨body₁, s₁, h₁, hm₁⟩ := srv.answer_mac hmac 0
    obtain ⟨body₂, s₂, h₂, hm₂⟩ := srv.answer_mac hmac 1
    have heq := hfree (.filled 0) (.filled 1) _ _ s₁ s₂ (handleMessage_of_answer hbuf h₁ conn)
      (handleMessage_of_answer hbuf h₂ conn)
    have hbody : body₁ = body₂ := by
      rw [← drop_reply (.filled 0) s₁ (valueAt _ buf 16) body₁, heq, drop_reply]
    rw [hbody, hm₂] at hm₁
    exact absurd hm₁ (by decide)
  · intro hmac stack₁ stack₂ r₁ r₂ s₁ s₂ h₁ h₂
    rw [handleMessage_eq _ srv hbuf, srv.answer_congr hmac stack₁ stack₂] at h₁
    rw [handleMessage_eq _ srv hbuf] at h₂
    rcases ha : srv.answer stack₂ (requestOf buf) with f | ⟨_ | body, srv'⟩ <;>
      rw [ha] at h₁ h₂ <;> simp only [finish, reduceCtorEq, Except.ok.injEq, Prod.mk.injEq] at h₁ h₂
    · rw [← h₁.1, ← h₂.1]
    · rw [← h₁.1, ← h₂.1, srv'.reply_congr]

theorem stackFree_iff_version :
    StackFree ⟨.empty, 7, 0⟩ (clientPacket .protocolVersionMessage []) ⟨0, 0⟩
      ↔ ¬ ShowsMac ⟨.empty, 7, 0⟩ (requestOf (clientPacket .protocolVersionMessage [])) :=
  stackFree_iff _ (by decide) _

theorem not_stackFree_motors : ¬ StackFree ⟨.empty, 7, 0⟩
    (clientPacket .controllersMotorsInfoMessage (List.replicate 8 0)) ⟨0, 0⟩ := by
  intro hfree
  have heq := congrArg (bytesAt · 24 6) (hfree (.filled 0) (.filled 1) _ _ _ _ rfl rfl)
  exact absurd heq (by decide)

end DsuServer

end ProConDSU
