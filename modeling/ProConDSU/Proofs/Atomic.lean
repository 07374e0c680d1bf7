import ProConDSU.Proofs.Manager

/-!
# Connects taken whole

`connectController` is taken a statement at a time in a run, with callbacks between any two of them.
The manager still ends as if each connect happened at once, where its last statement stands in the
run, and a report of a controller that has no slot yet had not been made (`ManagerRun.atomic`).
-/

namespace ProConDSU

/-- What the manager does, each thing whole. -/
inductive ManagerOp
  | connect (handle : Option ℕ)
  | report (handle : ℕ) (status : InputStatus)
  deriving DecidableEq

namespace ControllerManager

/-- The controller with this handle has a status to report, if there is such a controller. -/
def report (handle : ℕ) (status : InputStatus) (m : ControllerManager) : ControllerManager :=
  match m.controllers.find? (·.handle = handle) with
  | none => m
  | some c => c.deliver status m

def apply (m : ControllerManager) : ManagerOp → ControllerManager
  | .connect handle => (connectController handle m).2
  | .report handle status => m.report handle status

def applyAll (m : ControllerManager) (ops : List ManagerOp) : ControllerManager := ops.foldl apply m

end ControllerManager

/-- The handle of the connect a history leaves in progress, if it does. -/
def inFlight (es : List ManagerEvent) : Option ℕ := (connectedHandles es)[slotsAppended es]?

/-- The operation an event completes, after the history `es`. -/
def ManagerEvent.completes (es : List ManagerEvent) : ManagerEvent → Option ManagerOp
  | .connectFails => some (.connect none)
  | .pushesState => some (.connect (inFlight es))
  | .inputStatus handle status => some (.report handle status)
  | .connects _ | .capturesIndex | .registers | .pushesController => none

def operations (es : List ManagerEvent) : List ManagerOp :=
  History.readings ManagerEvent.completes es

/-- `m` has the slots of `s` that are appended whole. -/
structure Whole (s : ManagerState) (m : ControllerManager) : Prop where
  states : m.lastInputStates = s.manager.lastInputStates
  controllers : m.controllers = s.manager.controllers.take s.manager.lastInputStates.length

theorem find?_handle {l : List ProController} (h : (l.map ProController.handle).Nodup) {i : ℕ}
    {c : ProController} (hi : l[i]? = some c) : l.find? (·.handle = c.handle) = some c := by
  obtain ⟨hlt, hget⟩ := List.getElem?_eq_some_iff.1 hi
  rw [List.find?_eq_some_iff_getElem]
  refine ⟨by simp, i, hlt, hget, fun j hj => ?_⟩
  have hne : l[j].handle ≠ c.handle := by
    intro heq
    have hsame : (l.map ProController.handle)[j]? = (l.map ProController.handle)[i]? := by
      rw [List.getElem?_map, List.getElem?_map, hi, List.getElem?_eq_getElem (hj.trans hlt),
        Option.map_some, Option.map_some, heq]
    exact absurd ((List.getElem?_inj (by simpa using hj.trans hlt) h).1 hsame) hj.ne
  simpa using hne

section Whole

variable {s : ManagerState} {m : ControllerManager} {j : ℕ} {c : ProController}

theorem Whole.find?_eq (hm : Whole s m) (hs : s.Inv) (hc : s.alive[j]? = some c) :
    m.controllers.find? (·.handle = c.handle)
      = if j < s.manager.lastInputStates.length then some c else none := by
  have hle := hs.states_le
  have htake : m.controllers = s.alive.take s.manager.lastInputStates.length := by
    rw [hm.controllers, ManagerState.alive, List.take_append_of_le_length hle]
  rw [htake]
  split_ifs with hj
  · refine find?_handle (i := j) ?_ ?_
    · rw [List.map_take]
      exact hs.nodup.sublist (List.take_sublist ..)
    · rw [List.getElem?_take_of_lt hj, hc]
  · rw [List.find?_eq_none]
    intro c' hc'
    obtain ⟨i, hi⟩ := List.mem_iff_getElem?.1 hc'
    have hlt : i < s.manager.lastInputStates.length := by
      have := (List.getElem?_eq_some_iff.1 hi).1
      rw [List.length_take] at this
      omega
    rw [List.getElem?_take_of_lt hlt] at hi
    have hne : c'.handle ≠ c.handle := by
      intro heq
      have hsame : (s.alive.map ProController.handle)[i]?
          = (s.alive.map ProController.handle)[j]? := by
        rw [List.getElem?_map, List.getElem?_map, hi, hc, Option.map_some, Option.map_some, heq]
      have hlen : i < (s.alive.map ProController.handle).length := by
        simpa using (List.getElem?_eq_some_iff.1 hi).1
      have hij := (List.getElem?_inj hlen hs.nodup).1 hsame
      omega
    simpa using hne

theorem Whole.report (hm : Whole s m) (hs : s.Inv) {handle : ℕ} (hfind : s.find handle = some c)
    (status : InputStatus) :
    Whole { s with manager := c.deliver status s.manager } (m.report handle status) := by
  obtain ⟨j, hj, rfl⟩ := ManagerState.find_eq_some hfind
  have hdeliver := hs.deliver_states hj status
  have hcontrollers := ProController.deliver_controllers c status s.manager
  rw [ControllerManager.report, hm.find?_eq hs hj]
  split_ifs with hlt
  · have hcall : c.inputStatusCallback = some ⟨j⟩ := by
      refine hs.registered j c ?_
      rwa [ManagerState.alive, List.getElem?_append_left (hlt.trans_le hs.states_le)] at hj
    refine ⟨?_, ?_⟩
    · show (c.deliver status m).lastInputStates = (c.deliver status s.manager).lastInputStates
      rw [hdeliver, ProController.deliver, hcall]
      simp only [InputCallback.call, hm.states, if_pos hlt]
    · show (c.deliver status m).controllers = (c.deliver status s.manager).controllers.take _
      rw [ProController.deliver_controllers, hcontrollers, ProController.deliver_length,
        hm.controllers]
  · rw [List.set_eq_of_length_le (not_lt.1 hlt)] at hdeliver
    refine ⟨hm.states.trans hdeliver.symm, ?_⟩
    show m.controllers = (c.deliver status s.manager).controllers.take _
    rw [hcontrollers, ProController.deliver_length, hm.controllers]

end Whole

theorem Tracks.whole {es : List ManagerEvent} {s s' : ManagerState} {m : ControllerManager}
    {e : ManagerEvent} (hs : Tracks es s) (hm : Whole s m) (h : s.Moves e s') :
    Whole s' (m.applyAll (e.completes es).toList) := by
  have hphase := hs.inv.phase
  cases h with
  | connectFails | connects | capturesIndex | registers => exact ⟨hm.states, hm.controllers⟩
  | pushesController c hconn =>
    rw [ManagerState.Phase, hconn] at hphase
    refine ⟨hm.states, hm.controllers.trans ?_⟩
    show _ = (s.manager.controllers ++ [c]).take _
    rw [List.take_append_of_le_length hphase.1.ge]
  | inputStatus c handle status hfind => exact hm.report hs.inv hfind status
  | pushesState hconn =>
    have hsizes : s.manager.controllers.length = s.manager.lastInputStates.length + 1 := by
      rwa [ManagerState.Phase, hconn] at hphase
    have hlt : s.manager.lastInputStates.length < s.manager.controllers.length := by omega
    obtain ⟨c, hc⟩ : ∃ c, s.manager.controllers[s.manager.lastInputStates.length]? = some c :=
      ⟨_, List.getElem?_eq_getElem hlt⟩
    have hhandle : inFlight es = some c.handle := by
      rw [inFlight, ← hs.appended, ← hs.handles, List.getElem?_map, ManagerState.alive,
        List.getElem?_append_left hlt, hc, Option.map_some]
    have hcall := hs.inv.registered _ c hc
    have hall : s.manager.controllers = m.controllers ++ [c] := by
      rw [hm.controllers, ← Option.toList_some, ← hc, ← List.take_add_one, ← hsizes,
        List.take_length]
    have hlast : c = ⟨c.handle, some ⟨m.controllers.length⟩⟩ := by
      rw [hm.controllers, List.length_take, Nat.min_eq_left hlt.le, ← hcall]
    show Whole _ (ControllerManager.connectController (inFlight es) m).2
    rw [hhandle]
    refine ⟨?_, ?_⟩
    · show m.lastInputStates ++ [.zero] = s.manager.lastInputStates ++ [.zero]
      rw [hm.states]
    · show m.controllers ++ [⟨c.handle, some ⟨m.controllers.length⟩⟩]
        = s.manager.controllers.take (s.manager.lastInputStates ++ [InputStatus.zero]).length
      rw [← hlast, ← hall, List.length_append, List.length_singleton, ← hsizes, List.take_length]

theorem ManagerRun.whole {es : List ManagerEvent} {s : ManagerState} (h : ManagerRun es s) :
    Whole s (ControllerManager.empty.applyAll (operations es)) := by
  have hrun := Run.history
    (fun es s => Tracks es s ∧ Whole s (ControllerManager.empty.applyAll (operations es))) h
    ⟨ManagerRun.tracks (.nil _), rfl, rfl⟩ ?_
  · exact hrun.2
  · rintro fs s e s' ⟨htracks, hwhole⟩ hstep
    have hmoves := ManagerState.moves_of_step hstep
    refine ⟨htracks.step hmoves, ?_⟩
    rw [operations, History.readings_concat, ControllerManager.applyAll, List.foldl_append]
    exact htracks.whole hwhole hmoves

/-- However callbacks fall between a connect's statements, the manager ends where its operations
end, taken whole one after another. -/
theorem ManagerRun.atomic {es : List ManagerEvent} {s : ManagerState} (h : ManagerRun es s)
    (hidle : s.connecting = .idle) :
    s.manager = ControllerManager.empty.applyAll (operations es) := by
  have hwhole := h.whole
  have hphase := h.tracks.inv.phase
  rw [ManagerState.Phase, hidle] at hphase
  have hcontrollers := hwhole.controllers
  rw [← hphase, List.take_length] at hcontrollers
  calc s.manager
      = ⟨s.manager.controllers, s.manager.lastInputStates⟩ := rfl
    _ = ControllerManager.empty.applyAll (operations es) := by
      rw [← hcontrollers, ← hwhole.states]

/-- A report between the two `push_back`s goes nowhere, and one after them is kept. -/
theorem ManagerRun.atomic_one : ∃ es s, ManagerRun es s
    ∧ operations es = [.connect none, .report 5 .zero, .connect (some 5),
      .report 5 { InputStatus.zero with timestamp := 9 }]
    ∧ s.manager = ControllerManager.empty.applyAll (operations es) := by
  have hrun : ManagerRun [.connectFails, .connects 5, .capturesIndex, .registers, .pushesController,
      .inputStatus 5 .zero, .pushesState, .inputStatus 5 { InputStatus.zero with timestamp := 9 }]
      ⟨⟨[⟨5, some ⟨0⟩⟩], [{ InputStatus.zero with timestamp := 9 }]⟩, .idle⟩ :=
    .cons rfl <| .cons rfl <| .cons rfl <| .cons rfl <| .cons rfl <| .cons rfl <| .cons rfl <|
      .cons rfl <| .nil _
  exact ⟨_, _, hrun, rfl, ManagerRun.atomic hrun rfl⟩

end ProConDSU
