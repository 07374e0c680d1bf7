import ProConDSU.Proofs.RequestCodec
import ProConDSU.Proofs.Slots

/-!
# What selects the controller of a data reply

A data request says by its type whether it is for a slot, for a MAC address or for every controller.
The handler looks at the slot alone (`reportsSlot_iff`), so it does as documented for the first kind
and no other (`selectsAsDocumented_iff`).
-/

namespace ProConDSU

namespace DsuServer

theorem requestOf_dataRequest (id : ControllerIdentifier) :
    requestOf (clientPacket .controllersDataMessage id.serialize) = .data id := by
  rw [requestOf_clientPacket]
  simp [Packet.request, MessageType.protocolVersionMessage, MessageType.controllersInfoMessage,
    MessageType.controllersDataMessage, ControllerIdentifier.identifierOf_serialize]

variable (stack : Stack) (srv : DsuServer)

/-- Every reply to a data request for `id` reports slot `slot`. -/
def ReportsSlot (id : ControllerIdentifier) (slot : UInt8) : Prop :=
  ∀ (buf : ByteBuffer) (conn : Connection), buf.length ≤ maxSize → requestOf buf = .data id →
    ∃ reply srv', srv.handleMessage stack buf conn = .ok (reply, srv')
      ∧ bytesAt reply 20 1 = [slot]

/-- The request's slot where it is connected, and the stack's elsewhere. -/
def reportedSlot (slot : UInt8) : UInt8 :=
  if slot.toNat < srv.controllerManager.getConnectedControllerCount then slot
  else stack.cdrs.info.slot

theorem buildControllerDataResponse_slot (slot : UInt8) :
    (buildControllerDataResponse stack srv slot.toNat).1.info.slot
      = reportedSlot stack srv slot := by
  unfold reportedSlot ControllerManager.getConnectedControllerCount
  split_ifs with h
  · rw [buildControllerDataResponse_eq stack srv h, (copyStatus_keeps stack srv _).1]
    exact UInt8.ofNat_toNat
  · rw [buildControllerDataResponse_disconnected stack srv (not_lt.1 h)]
    rfl

theorem reportsSlot_iff (id : ControllerIdentifier) (slot : UInt8) :
    ReportsSlot stack srv id slot ↔ slot = reportedSlot stack srv id.slot := by
  have hreply : ∀ (srv' : DsuServer) (type : MessageType), bytesAt (srv'.reply stack type
      (buildControllerDataResponse stack srv id.slot.toNat).1.serialize) 20 1
        = [reportedSlot stack srv id.slot] := by
    intro srv' type
    rw [show (20 : ℕ) = 20 + 0 from rfl, bytesAt_reply, ← buildControllerDataResponse_slot,
      ControllersDataResponse.serialize_eq, ControllerInfoShared.serialize_eq]
    rfl
  refine ⟨?_, ?_⟩
  · intro h
    have hbuf : (clientPacket .controllersDataMessage id.serialize).length ≤ maxSize := by
      simp [clientPacket, dsuc, maxSize]
    obtain ⟨reply, srv', hok, hslot⟩ := h _ ⟨0, 0⟩ hbuf (requestOf_dataRequest id)
    obtain ⟨rfl, -⟩ :=
      Exec.unique (handleMessage_data stack srv hbuf (requestOf_dataRequest id) ⟨0, 0⟩) hok
    rw [hreply] at hslot
    exact (List.cons.inj hslot).1.symm
  · rintro rfl buf conn hbuf hreq
    exact ⟨_, _, handleMessage_data stack srv hbuf hreq conn, hreply _ _⟩

/-- A request for `id` and one for `id'` are told about the same slot, whatever the stack holds at
each of the two calls. -/
def SameSlot (id id' : ControllerIdentifier) : Prop :=
  ∀ stack stack' : Stack, ∃ slot, ReportsSlot stack srv id slot ∧ ReportsSlot stack' srv id' slot

theorem sameSlot_iff (id id' : ControllerIdentifier) : SameSlot srv id id'
    ↔ ∀ stack stack', reportedSlot stack srv id.slot = reportedSlot stack' srv id'.slot := by
  simp only [SameSlot, reportsSlot_iff, exists_eq_left]

/-- What a request for `id` should be told about, `macs i` being the address of the controller in
slot `i`. -/
structure SelectsAsDocumented (macs : ℕ → Vector UInt8 6) (id : ControllerIdentifier) : Prop where
  slot : id.type.value &&& controllerIdTypeSlot.value ≠ 0 →
    ∀ stack, ReportsSlot stack srv id id.slot
  mac : id.type.value &&& controllerIdTypeSlot.value = 0 →
    id.type.value &&& controllerIdTypeMAC.value ≠ 0 →
    (∀ i < srv.controllerManager.getConnectedControllerCount, macs i = id.mac →
        ∀ stack, ReportsSlot stack srv id (UInt8.ofNat i))
      ∧ ∀ slot, SameSlot srv id { id with slot := slot }
  all : id.type.value = 0 → ∀ slot mac, SameSlot srv id { id with slot := slot, mac := mac }

theorem reportedSlot_connected {srv : DsuServer} {slot : UInt8}
    (h : slot.toNat < srv.controllerManager.getConnectedControllerCount) (stack : Stack) :
    reportedSlot stack srv slot = slot :=
  if_pos h

theorem reportedSlot_disconnected {srv : DsuServer} {slot : UInt8}
    (h : ¬ slot.toNat < srv.controllerManager.getConnectedControllerCount) (stack : Stack) :
    reportedSlot stack srv slot = stack.cdrs.info.slot :=
  if_neg h

/-- What is reported depends on the slot, or on the stack. -/
theorem exists_reportedSlot_ne (slot : UInt8) : ∃ stack stack' slot',
    reportedSlot stack srv slot ≠ reportedSlot stack' srv slot' := by
  by_cases hlt : slot.toNat < srv.controllerManager.getConnectedControllerCount
  · refine ⟨.filled (slot + 1), .filled (slot + 1), slot + 1, ?_⟩
    have hnext : reportedSlot (.filled (slot + 1)) srv (slot + 1) = slot + 1 := by
      unfold reportedSlot
      split_ifs <;> rfl
    rw [hnext, reportedSlot_connected hlt]
    simp
  · refine ⟨.filled 0, .filled 1, slot, ?_⟩
    rw [reportedSlot_disconnected hlt, reportedSlot_disconnected hlt]
    show (0 : UInt8) ≠ 1
    decide

section Kinds

variable {srv : DsuServer} {macs : ℕ → Vector UInt8 6} {id : ControllerIdentifier}

theorem selectsAsDocumented_slot (hslot : id.type.value &&& controllerIdTypeSlot.value ≠ 0) :
    srv.SelectsAsDocumented macs id
      ↔ id.slot.toNat < srv.controllerManager.getConnectedControllerCount := by
  refine ⟨fun h => ?_, fun hlt => ⟨fun _ stack => ?_, fun h => absurd h hslot, fun hall => ?_⟩⟩
  · by_contra hlt
    have hreported := (reportsSlot_iff ..).1 (h.slot hslot (.filled (id.slot + 1)))
    rw [reportedSlot_disconnected hlt] at hreported
    have hnext : id.slot = id.slot + 1 := hreported
    simp at hnext
  · rw [reportsSlot_iff, reportedSlot_connected hlt]
  · exact absurd (by rw [hall]; rfl) hslot

theorem selectsAsDocumented_other (hslot : id.type.value &&& controllerIdTypeSlot.value = 0) :
    srv.SelectsAsDocumented macs id
      ↔ id.type.value &&& controllerIdTypeMAC.value = 0 ∧ id.type.value ≠ 0 := by
  obtain ⟨stack, stack', s, hne⟩ := srv.exists_reportedSlot_ne id.slot
  refine ⟨fun h => ⟨?_, fun hall => ?_⟩, ?_⟩
  · by_contra hmac
    exact hne ((sameSlot_iff ..).1 ((h.mac hslot hmac).2 s) stack stack')
  · exact hne ((sameSlot_iff ..).1 (h.all hall s id.mac) stack stack')
  · rintro ⟨hmac, hall⟩
    exact ⟨fun h => absurd hslot h, fun _ h => absurd hmac h, fun h => absurd h hall⟩

end Kinds

/-- Requests are answered as documented by slot, for a connected slot, and never by MAC address or
for all. -/
theorem selectsAsDocumented_iff (macs : ℕ → Vector UInt8 6) (id : ControllerIdentifier) :
    srv.SelectsAsDocumented macs id
      ↔ (id.type.value &&& controllerIdTypeSlot.value ≠ 0
          ∧ id.slot.toNat < srv.controllerManager.getConnectedControllerCount)
        ∨ (id.type.value &&& controllerIdTypeSlot.value = 0
          ∧ id.type.value &&& controllerIdTypeMAC.value = 0 ∧ id.type.value ≠ 0) := by
  by_cases hslot : id.type.value &&& controllerIdTypeSlot.value = 0
  · rw [selectsAsDocumented_other hslot]
    simp only [hslot, ne_eq, not_true_eq_false, false_and, true_and, false_or]
  · rw [selectsAsDocumented_slot hslot]
    simp only [hslot, ne_eq, not_false_eq_true, true_and, false_and, or_false]

def twoControllers : DsuServer := ⟨⟨[⟨5, some ⟨0⟩⟩, ⟨6, some ⟨1⟩⟩], [.zero, .zero]⟩, 7, 0⟩

theorem twoControllers_reachable : twoControllers.Reachable := by
  have hrun : ManagerState.Runs .boot ([some 5, some 6].flatMap connectEvents)
      ⟨twoControllers.controllerManager, .idle⟩ :=
    ControllerManager.initializeFrom_run [some 5, some 6] .empty (by decide)
  exact ⟨_, [], ⟨rfl, _, hrun⟩, .nil _⟩

/-- Two requests for one MAC address are told about different slots. -/
theorem not_selectsAsDocumented_mac : twoControllers.Reachable
    ∧ ∀ macs, ¬ twoControllers.SelectsAsDocumented macs ⟨⟨2⟩, 0, Vector.replicate 6 9⟩ := by
  refine ⟨twoControllers_reachable, fun macs h => ?_⟩
  have hsame := (sameSlot_iff ..).1 ((h.mac rfl (by decide)).2 1) (.filled 0) (.filled 0)
  exact absurd hsame (by decide)

end DsuServer

end ProConDSU
