import ProConDSU.ControllerManager
import ProConDSU.Lib.History

/-!
# The controllers' slots

At every point of a run, the callback of the `i`th controller to connect can only write the `i`th
state: the index it captured is the size `controllers` had, and connects come one at a time
(`ManagerState.Inv`). So the `i`th state is the last status that controller reported since its slot
was appended (`Tracks`).
-/

namespace ProConDSU

def connectedHandles (es : List ManagerEvent) : List ℕ :=
  es.filterMap fun
    | .connects handle => some handle
    | _ => none

def ManagerEvent.statusFrom (handle : ℕ) : ManagerEvent → Option InputStatus
  | .inputStatus handle' status => if handle' = handle then some status else none
  | _ => none

def lastStatus (handle : ℕ) (es : List ManagerEvent) : InputStatus :=
  (History.latest (ManagerEvent.statusFrom handle) es).getD .zero

def slotsAppended (es : List ManagerEvent) : ℕ := es.countP (· = .pushesState)

/-- What the `i`th controller to connect last reported after its slot was appended. -/
def slotStatus (es : List ManagerEvent) (i : ℕ) : Option InputStatus :=
  (connectedHandles es)[i]?.map fun handle =>
    lastStatus handle (History.afterNth (· = .pushesState) i es)

section Events

variable {es : List ManagerEvent} {e : ManagerEvent} {i : ℕ}

theorem lastStatus_concat_none {handle : ℕ} (h : e.statusFrom handle = none) :
    lastStatus handle (es ++ [e]) = lastStatus handle es := by
  rw [lastStatus, History.latest_concat_none h, lastStatus]

theorem lastStatus_concat_some {handle : ℕ} {status : InputStatus}
    (h : e.statusFrom handle = some status) : lastStatus handle (es ++ [e]) = status := by
  rw [lastStatus, History.latest_concat_some h, Option.getD_some]

/-- An event that reports nothing leaves what the slots' controllers last reported. -/
theorem slotStatus_concat_none (hi : i < slotsAppended es) (hc : i < (connectedHandles es).length)
    (h : ∀ handle, e.statusFrom handle = none) : slotStatus (es ++ [e]) i = slotStatus es i := by
  rw [slotStatus, slotStatus, connectedHandles, List.filterMap_append, ← connectedHandles,
    List.getElem?_append_left hc, History.afterNth_append_of_lt _ _ _ hi]
  exact congrFun (congrArg _ (funext fun handle => lastStatus_concat_none (h handle))) _

theorem slotStatus_concat_inputStatus (hi : i < slotsAppended es) (handle : ℕ)
    (status : InputStatus) : slotStatus (es ++ [.inputStatus handle status]) i
      = if (connectedHandles es)[i]? = some handle then some status else slotStatus es i := by
  have hh : connectedHandles (es ++ [.inputStatus handle status]) = connectedHandles es := by
    simp [connectedHandles]
  rw [slotStatus, slotStatus, hh, History.afterNth_append_of_lt _ _ _ hi]
  rcases (connectedHandles es)[i]? with _ | handle'
  · simp
  by_cases heq : handle' = handle
  · subst heq
    rw [if_pos rfl, Option.map_some, lastStatus_concat_some]
    simp [ManagerEvent.statusFrom]
  · have : handle ≠ handle' := fun h => heq h.symm
    rw [if_neg (by simpa using heq), Option.map_some, Option.map_some,
      lastStatus_concat_none (by simp [ManagerEvent.statusFrom, this])]

theorem slotStatus_concat_pushesState (hc : slotsAppended es < (connectedHandles es).length) :
    slotStatus (es ++ [.pushesState]) (slotsAppended es) = some .zero := by
  have hh : connectedHandles (es ++ [.pushesState]) = connectedHandles es := by
    simp [connectedHandles]
  have hnil : History.afterNth (· = .pushesState) (slotsAppended es) (es ++ [.pushesState]) = [] :=
    History.afterNth_concat_eq_nil (by simp) es
  rw [slotStatus, hh, hnil, List.getElem?_eq_getElem hc]
  rfl

end Events

namespace ManagerState

inductive Moves (s : ManagerState) : ManagerEvent → ManagerState → Prop
  | connectFails : s.connecting = .idle → Moves s .connectFails s
  | connects (handle : ℕ) : s.connecting = .idle → s.find handle = none →
    Moves s (.connects handle) { s with connecting := .connected ⟨handle, none⟩ }
  | capturesIndex (c : ProController) : s.connecting = .connected c →
    Moves s .capturesIndex { s with connecting := .indexed c s.manager.controllers.length }
  | registers (c : ProController) (i : ℕ) : s.connecting = .indexed c i →
    Moves s .registers
      { s with connecting := .registered { c with inputStatusCallback := some ⟨i⟩ } }
  | pushesController (c : ProController) : s.connecting = .registered c →
    Moves s .pushesController
      ⟨{ s.manager with controllers := s.manager.controllers ++ [c] }, .pushed⟩
  | pushesState : s.connecting = .pushed →
    Moves s .pushesState
      ⟨{ s.manager with lastInputStates := s.manager.lastInputStates ++ [.zero] }, .idle⟩
  | inputStatus (c : ProController) (handle : ℕ) (status : InputStatus) : s.find handle = some c →
    Moves s (.inputStatus handle status) { s with manager := c.deliver status s.manager }

theorem moves_of_step {s s' : ManagerState} {e : ManagerEvent} (h : s.step e = some s') :
    s.Moves e s' := by
  cases e <;> simp only [step] at h
  case connectFails =>
    split_ifs at h with hidle
    cases h
    exact .connectFails hidle
  case connects handle =>
    split_ifs at h with hidle
    cases h
    exact .connects handle hidle.1 hidle.2
  case inputStatus handle status =>
    obtain ⟨c, hc, rfl⟩ := Option.map_eq_some_iff.1 h
    exact .inputStatus c handle status hc
  all_goals
    split at h
    case h_2 => cases h
    case h_1 hconn =>
      cases h
      constructor
      exact hconn

/-- Where a connect stands among the two vectors. -/
def Phase (s : ManagerState) : Prop :=
  match s.connecting with
  | .idle => s.manager.controllers.length = s.manager.lastInputStates.length
  | .connected c =>
    s.manager.controllers.length = s.manager.lastInputStates.length ∧ c.inputStatusCallback = none
  | .indexed c i =>
    s.manager.controllers.length = s.manager.lastInputStates.length ∧ c.inputStatusCallback = none
      ∧ i = s.manager.controllers.length
  | .registered c =>
    s.manager.controllers.length = s.manager.lastInputStates.length
      ∧ c.inputStatusCallback = some ⟨s.manager.controllers.length⟩
  | .pushed => s.manager.controllers.length = s.manager.lastInputStates.length + 1

structure Inv (s : ManagerState) : Prop where
  phase : s.Phase
  nodup : (s.alive.map ProController.handle).Nodup
  /-- A controller's callback captured its own index. -/
  registered : ∀ (i : ℕ) (c : ProController), s.manager.controllers[i]? = some c →
    c.inputStatusCallback = some ⟨i⟩

end ManagerState

section Deliver

variable (c : ProController) (status : InputStatus) (m : ControllerManager)

@[simp] theorem ProController.deliver_controllers :
    (c.deliver status m).controllers = m.controllers := by
  unfold deliver InputCallback.call
  split
  · rfl
  split_ifs <;> rfl

@[simp] theorem ProController.deliver_length :
    (c.deliver status m).lastInputStates.length = m.lastInputStates.length := by
  unfold deliver InputCallback.call
  split
  · rfl
  split_ifs <;> simp

end Deliver

namespace ManagerState

variable {s s' : ManagerState}

/-- The callback of the `i`th controller alive writes the `i`th state, if there is one. -/
theorem Inv.deliver_states (hs : s.Inv) {i : ℕ} {c : ProController} (hc : s.alive[i]? = some c)
    (status : InputStatus) : (c.deliver status s.manager).lastInputStates
      = s.manager.lastInputStates.set i status := by
  have hcall : c.inputStatusCallback = some ⟨i⟩ ∨ (c.inputStatusCallback = none
      ∧ s.manager.lastInputStates.length ≤ i) := by
    rcases Nat.lt_or_ge i s.manager.controllers.length with hlt | hge
    · rw [alive, List.getElem?_append_left hlt] at hc
      exact .inl (hs.registered i c hc)
    · rw [alive, List.getElem?_append_right hge] at hc
      have hphase := hs.phase
      unfold Phase at hphase
      rcases hconn : s.connecting with _ | c' | ⟨c', j⟩ | c' | _ <;> rw [hconn] at hc hphase <;>
        simp [Connecting.controller, List.getElem?_singleton] at hc hphase
      · exact .inr ⟨by rw [← hc.2, hphase.2], by omega⟩
      · exact .inr ⟨by rw [← hc.2, hphase.2.1], by omega⟩
      · left
        rw [← hc.2, hphase.2, show s.manager.controllers.length = i by omega]
  rcases hcall with h | ⟨h, hlen⟩
  · rw [ProController.deliver, h]
    simp only [InputCallback.call]
    split_ifs with hlt
    · rfl
    · exact (List.set_eq_of_length_le (by omega)).symm
  · rw [ProController.deliver, h, List.set_eq_of_length_le hlen]

theorem find_eq_some {handle : ℕ} {c : ProController} (h : s.find handle = some c) :
    ∃ i : ℕ, s.alive[i]? = some c ∧ c.handle = handle := by
  obtain ⟨i, hi⟩ := List.mem_iff_getElem?.1 (List.mem_of_find?_eq_some h)
  exact ⟨i, hi, by simpa using List.find?_some h⟩

theorem boot_inv : boot.Inv where
  phase := rfl
  nodup := by simp [boot, alive, Connecting.controller, ControllerManager.empty]
  registered i c h := by simp [boot, ControllerManager.empty] at h

/-- A step leaves the controllers alive, but that a connect adds one. -/
theorem Moves.alive_eq {e : ManagerEvent} (h : s.Moves e s') :
    s'.alive.map ProController.handle
      = s.alive.map ProController.handle ++ connectedHandles [e] := by
  cases h with
  | connectFails => simp [connectedHandles]
  | inputStatus => simp [alive, connectedHandles]
  | connects _ hconn | capturesIndex _ hconn | registers _ _ hconn | pushesController _ hconn
  | pushesState hconn => simp [alive, connectedHandles, Connecting.controller, hconn]

theorem Moves.phase {e : ManagerEvent} (h : s.Moves e s') (hs : s.Phase) : s'.Phase := by
  unfold Phase at hs
  cases h with
  | connectFails => exact hs
  | inputStatus => simpa [Phase] using hs
  | connects _ hconn | capturesIndex _ hconn | registers _ _ hconn | pushesController _ hconn
  | pushesState hconn =>
    rw [hconn] at hs
    simp [Phase, hs]

theorem Moves.registered {e : ManagerEvent} (h : s.Moves e s') (hs : s.Inv) {i : ℕ}
    {c : ProController} (hc : s'.manager.controllers[i]? = some c) :
    c.inputStatusCallback = some ⟨i⟩ := by
  cases h with
  | pushesController c' hconn =>
    have hphase := hs.phase
    rw [Phase, hconn] at hphase
    rw [List.getElem?_append] at hc
    split_ifs at hc with hlt
    · exact hs.registered i c hc
    · simp only [List.getElem?_singleton, Option.ite_none_right_eq_some, Option.some.injEq] at hc
      rw [← hc.2, hphase.2, show s.manager.controllers.length = i by omega]
  | inputStatus => exact hs.registered i c (by simpa using hc)
  | connectFails | connects | capturesIndex | registers | pushesState => exact hs.registered i c hc

theorem Moves.inv {e : ManagerEvent} (h : s.Moves e s') (hs : s.Inv) : s'.Inv where
  phase := h.phase hs.phase
  nodup := by
    rw [h.alive_eq]
    cases h with
    | connects handle _ hfind =>
      have hnew : handle ∉ s.alive.map ProController.handle := by simpa [find] using hfind
      simpa [connectedHandles, List.nodup_append, hs.nodup] using hnew
    | _ => simpa [connectedHandles] using hs.nodup
  registered _ _ hc := h.registered hs hc

theorem Inv.states_le (hs : s.Inv) :
    s.manager.lastInputStates.length ≤ s.manager.controllers.length := by
  have hphase := hs.phase
  unfold Phase at hphase
  split at hphase <;> omega

end ManagerState

/-- The state after a history: the controllers alive are those connected, and each slot's state is
what its controller last reported. -/
structure Tracks (es : List ManagerEvent) (s : ManagerState) : Prop where
  inv : s.Inv
  handles : s.alive.map ProController.handle = connectedHandles es
  appended : s.manager.lastInputStates.length = slotsAppended es
  states : ∀ i < s.manager.lastInputStates.length, s.manager.lastInputStates[i]? = slotStatus es i

namespace Tracks

variable {es : List ManagerEvent} {s s' : ManagerState}

theorem appended_le (hs : Tracks es s) : slotsAppended es ≤ (connectedHandles es).length := by
  have hle := hs.inv.states_le
  have halive : s.alive.length = (connectedHandles es).length := by
    rw [← hs.handles, List.length_map]
  rw [ManagerState.alive, List.length_append] at halive
  rw [← hs.appended]
  omega

theorem inputStatus_states (hs : Tracks es s) {handle : ℕ} {c : ProController}
    (hfind : s.find handle = some c) (status : InputStatus) (i : ℕ) :
    (c.deliver status s.manager).lastInputStates[i]?
      = if (connectedHandles es)[i]? = some handle ∧ i < s.manager.lastInputStates.length
        then some status else s.manager.lastInputStates[i]? := by
  obtain ⟨j, hj, rfl⟩ := ManagerState.find_eq_some hfind
  have hhandle : (connectedHandles es)[j]? = some c.handle := by
    rw [← hs.handles, List.getElem?_map, hj, Option.map_some]
  have hij : (connectedHandles es)[i]? = some c.handle ↔ j = i := by
    refine ⟨?_, ?_⟩
    · intro hi
      have hnodup : (connectedHandles es).Nodup := hs.handles ▸ hs.inv.nodup
      exact (List.getElem?_inj (List.getElem?_eq_some_iff.1 hhandle).1 hnodup).1
        (hhandle.trans hi.symm)
    · rintro rfl
      exact hhandle
  rw [hs.inv.deliver_states hj, List.getElem?_set]
  by_cases hji : j = i
  · subst hji
    by_cases hlt : j < s.manager.lastInputStates.length
    · simp [hlt, hhandle]
    · simp [hlt]
  · simp [hji, hij]

theorem step_states {e : ManagerEvent} (hs : Tracks es s) (h : s.Moves e s') (i : ℕ)
    (hi : i < s'.manager.lastInputStates.length) :
    s'.manager.lastInputStates[i]? = slotStatus (es ++ [e]) i := by
  have hle := hs.appended_le
  have happ := hs.appended
  cases h with
  | inputStatus c handle status hfind =>
    simp only [ProController.deliver_length] at hi
    rw [slotStatus_concat_inputStatus (by omega), hs.inputStatus_states hfind, hs.states i hi]
    simp only [hi, and_true]
  | pushesState hconn =>
    have hphase := hs.inv.phase
    rw [ManagerState.Phase, hconn] at hphase
    have halive : s.manager.controllers.length = (connectedHandles es).length := by
      rw [← hs.handles, List.length_map, ManagerState.alive, hconn]
      simp [Connecting.controller]
    rw [List.getElem?_append]
    split_ifs with hlt
    · rw [hs.states i hlt, slotStatus_concat_none (by omega) (by omega) fun _ => rfl]
    · -- the slot just appended, whose controller has had no chance to report
      have hlast : i = slotsAppended es := by
        simp only [List.length_append, List.length_singleton] at hi
        omega
      rw [hlast, slotStatus_concat_pushesState (by omega), happ, Nat.sub_self]
      rfl
  | connectFails | connects | capturesIndex | registers | pushesController =>
    have hlt : i < slotsAppended es := happ ▸ hi
    exact (hs.states i hi).trans (slotStatus_concat_none hlt (by omega) fun _ => rfl).symm

theorem step {e : ManagerEvent} (hs : Tracks es s) (h : s.Moves e s') : Tracks (es ++ [e]) s' where
  inv := h.inv hs.inv
  handles := by rw [h.alive_eq, hs.handles, connectedHandles, connectedHandles, connectedHandles,
    List.filterMap_append]
  appended := by
    rw [slotsAppended, List.countP_append, ← slotsAppended, ← hs.appended]
    cases h <;> simp
  states := hs.step_states h

end Tracks

/-- The states of any run. -/
theorem ManagerRun.tracks {es : List ManagerEvent} {s : ManagerState} (h : ManagerRun es s) :
    Tracks es s :=
  Run.history Tracks h
    ⟨ManagerState.boot_inv, rfl, rfl, fun i hi => absurd hi (Nat.not_lt_zero i)⟩
    fun _ _ _ _ hs hstep => hs.step (ManagerState.moves_of_step hstep)

/-- The steps of a `connectController` that no callback interrupts. -/
def connectEvents : Option ℕ → List ManagerEvent
  | none => [.connectFails]
  | some handle => [.connects handle, .capturesIndex, .registers, .pushesController, .pushesState]

namespace ControllerManager

theorem connectController_run (handle : Option ℕ) (m : ControllerManager)
    (hnew : ∀ h ∈ handle, h ∉ m.controllers.map ProController.handle) :
    ManagerState.Runs ⟨m, .idle⟩ (connectEvents handle)
      ⟨(connectController handle m).2, .idle⟩ := by
  rcases handle with _ | handle
  · simp [connectEvents, ManagerState.step, connectController]
  · have hfind : ManagerState.find ⟨m, .idle⟩ handle = none := by
      simpa [ManagerState.find, ManagerState.alive, Connecting.controller] using hnew
    simp [connectEvents, ManagerState.step, connectController, hfind]

theorem handles_connectController (handle : Option ℕ) (m : ControllerManager) :
    (connectController handle m).2.controllers.map ProController.handle
      = m.controllers.map ProController.handle ++ handle.toList := by
  rcases handle with _ | handle <;> simp [connectController, ProController.setInputStatusCallback]

theorem initializeFrom_run : ∀ (handles : List (Option ℕ)) (m : ControllerManager),
    (m.controllers.map ProController.handle ++ handles.reduceOption).Nodup →
      ManagerState.Runs ⟨m, .idle⟩ (handles.flatMap connectEvents) ⟨initializeFrom handles m, .idle⟩
  | [], m, _ => .nil _
  | handle :: handles, m, h => by
    have hcons : (handle :: handles).reduceOption = handle.toList ++ handles.reduceOption := by
      cases handle <;> rfl
    rw [hcons, ← List.append_assoc, ← handles_connectController] at h
    rw [List.flatMap_cons]
    refine (connectController_run handle m fun h' hh' hmem => ?_).append
      (initializeFrom_run handles _ h)
    rw [handles_connectController, List.nodup_append, List.nodup_append] at h
    exact h.1.2.2 h' hmem h' (by simpa using hh') rfl

end ControllerManager

end ProConDSU
