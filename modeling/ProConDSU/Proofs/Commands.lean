import ProConDSU.Proofs.Manager

/-!
# Calls of the controllers

The index of a call stands for one controller however long the manager runs: the one that connected
in that place, whose status is read at it (`CommandRun.obeys`).
-/

namespace ProConDSU

namespace CommandEvent

def managerEvent : CommandEvent → Option ManagerEvent
  | manager e => some e
  | setPlayerLed _ _ | setRumble _ _ => none

/-- The index a call is for, and the call. -/
def call : CommandEvent → Option (ℕ × VendorCall)
  | manager _ => none
  | setPlayerLed index bits => some (index, .setPlayerLed bits)
  | setRumble index rumble => some (index, .setRumble rumble)

end CommandEvent

def managerEvents (es : List CommandEvent) : List ManagerEvent :=
  es.filterMap CommandEvent.managerEvent

theorem managerEvents_concat (es : List CommandEvent) (e : CommandEvent) :
    managerEvents (es ++ [e]) = managerEvents es ++ e.managerEvent.toList := by
  rcases h : e.managerEvent with _ | f <;> simp [managerEvents, h]

/-- How many controllers a history has put in `controllers`. -/
def controllersPushed (es : List ManagerEvent) : ℕ := es.countP (· = .pushesController)

/-- The call an event makes after the history `es`: its index is in `controllers` by then. -/
def CommandEvent.made (es : List CommandEvent) (e : CommandEvent) : Option (ℕ × VendorCall) :=
  e.call.filter fun c => c.1 < controllersPushed (managerEvents es)

/-- The calls that the events make, by index. -/
def callsOf (es : List CommandEvent) : List (ℕ × VendorCall) :=
  History.readings CommandEvent.made es

/-- The controller with an index's handle, the `i`th to connect having `handles[i]`. -/
def byHandle (handles : List ℕ) (c : ℕ × VendorCall) : Option (ℕ × VendorCall) :=
  handles[c.1]?.map (·, c.2)

theorem byHandle_append {handles : List ℕ} {c : ℕ × VendorCall} (h : c.1 < handles.length)
    (more : List ℕ) : byHandle (handles ++ more) c = byHandle handles c := by
  rw [byHandle, List.getElem?_append_left h, byHandle]

structure Obeys (es : List CommandEvent) (s : Commanded) : Prop where
  run : ManagerRun (managerEvents es) s.state
  /-- Each call that finds its index has gone to the controller of that place. -/
  calls : s.calls.map some = (callsOf es).map (byHandle (connectedHandles (managerEvents es)))
  /-- And so do the states. -/
  states : ∀ i < s.state.manager.lastInputStates.length,
    s.state.manager.lastInputStates[i]? = slotStatus (managerEvents es) i

section Steps

variable {es : List CommandEvent} {s : Commanded}

theorem ManagerRun.controllersPushed_eq {fs : List ManagerEvent} {t : ManagerState}
    (h : ManagerRun fs t) : controllersPushed fs = t.manager.controllers.length := by
  refine Run.history (fun fs t => controllersPushed fs = t.manager.controllers.length) h rfl ?_
  intro fs s e s' hs hstep
  rw [controllersPushed, List.countP_append, ← controllersPushed, hs]
  cases ManagerState.moves_of_step hstep <;> simp

theorem ManagerRun.controllersPushed_le {fs : List ManagerEvent} {t : ManagerState}
    (h : ManagerRun fs t) : controllersPushed fs ≤ (connectedHandles fs).length := by
  rw [h.controllersPushed_eq, ← h.tracks.handles, List.length_map, ManagerState.alive,
    List.length_append]
  exact Nat.le_add_right ..

/-- What is kept, step by step. -/
structure Obeying (es : List CommandEvent) (s : Commanded) : Prop where
  run : ManagerRun (managerEvents es) s.state
  found : ∀ c ∈ callsOf es, c.1 < controllersPushed (managerEvents es)
  calls : s.calls.map some = (callsOf es).map (byHandle (connectedHandles (managerEvents es)))

theorem Obeying.manager (h : Obeying es s) {e : ManagerEvent} {t : ManagerState}
    (hstep : s.state.step e = some t) :
    Obeying (es ++ [.manager e]) { s with state := t } := by
  have hevents : managerEvents (es ++ [.manager e]) = managerEvents es ++ [e] :=
    managerEvents_concat es _
  have hcalls : callsOf (es ++ [.manager e]) = callsOf es := by
    rw [callsOf, History.readings_concat]
    exact List.append_nil _
  refine ⟨?_, fun c hc => ?_, ?_⟩
  · rw [hevents]
    exact h.run.append (.cons hstep (.nil _))
  · rw [hcalls] at hc
    rw [hevents, controllersPushed, List.countP_append]
    exact (h.found c hc).trans_le (Nat.le_add_right ..)
  · rw [hcalls, hevents, connectedHandles, List.filterMap_append, ← connectedHandles]
    refine h.calls.trans (List.map_congr_left fun c hc => ?_)
    exact (byHandle_append ((h.found c hc).trans_le h.run.controllersPushed_le) _).symm

theorem Obeying.command (h : Obeying es s) {e : CommandEvent} {index : ℕ} {call : VendorCall}
    (hmanager : e.managerEvent = none) (he : e.call = some (index, call)) :
    Obeying (es ++ [e]) (s.make (s.state.manager.callAt index call)) := by
  have hevents : managerEvents (es ++ [e]) = managerEvents es := by
    rw [managerEvents_concat, hmanager]
    exact List.append_nil _
  have hcalls : callsOf (es ++ [e]) = callsOf es ++ (e.made es).toList :=
    History.readings_concat _ es e
  have hpushed := h.run.controllersPushed_eq
  rcases Nat.lt_or_ge index s.state.manager.controllers.length with hlt | hge
  · have hmade : e.made es = some (index, call) := by
      simp [CommandEvent.made, he, hpushed, hlt]
    rw [hmade] at hcalls
    have hhandle : byHandle (connectedHandles (managerEvents es)) (index, call)
        = some (s.state.manager.controllers[index].handle, call) := by
      rw [byHandle, ← h.run.tracks.handles, ManagerState.alive, List.map_append,
        List.getElem?_append_left (by simpa using hlt), List.getElem?_map,
        List.getElem?_eq_getElem hlt]
      rfl
    rw [ControllerManager.callAt, dif_pos hlt]
    refine ⟨hevents ▸ h.run, fun c hc => ?_, ?_⟩
    · rw [hcalls] at hc
      rw [hevents]
      rcases List.mem_append.1 hc with hold | hnew
      · exact h.found c hold
      · rw [Option.toList_some, List.mem_singleton] at hnew
        rw [hnew, hpushed]
        exact hlt
    · rw [hcalls, hevents, List.map_append, ← h.calls]
      simp [Commanded.make, hhandle]
  · have hmade : e.made es = none := by
      simp [CommandEvent.made, he, hpushed, hge]
    rw [hmade, Option.toList_none, List.append_nil] at hcalls
    rw [ControllerManager.callAt, dif_neg (not_lt.2 hge)]
    refine ⟨hevents ▸ h.run, ?_, ?_⟩
    · rw [hcalls, hevents]
      exact h.found
    · rw [hcalls, hevents, ← h.calls]
      simp [Commanded.make]

theorem Obeying.step (h : Obeying es s) {e : CommandEvent} {t : Commanded}
    (hstep : s.step e = some t) : Obeying (es ++ [e]) t := by
  cases e with
  | manager e =>
    obtain ⟨state, hs, rfl⟩ := Option.map_eq_some_iff.1 hstep
    exact h.manager hs
  | setPlayerLed index bits | setRumble index rumble =>
    cases hstep
    exact h.command rfl rfl

end Steps

/-- Whatever connects and callbacks come between the calls. -/
theorem CommandRun.obeys {es : List CommandEvent} {s : Commanded} (h : CommandRun es s) :
    Obeys es s := by
  have hobeying := Run.history Obeying h ⟨.nil _, by simp [callsOf, History.readings,
    History.readingsFrom], rfl⟩ fun _ _ _ _ hs hstep => hs.step hstep
  exact ⟨hobeying.run, hobeying.calls, hobeying.run.tracks.states⟩

/-- The second controller is called once it is in its place, and not before. -/
theorem CommandRun.obeys_second : ∃ es s, CommandRun es s
    ∧ s.calls = [(5, .setPlayerLed 1), (6, .setPlayerLed 3)] ∧ Obeys es s := by
  let whole (handle : ℕ) : List CommandEvent := (connectEvents (some handle)).map .manager
  let es := whole 5 ++ .setPlayerLed 0 1 :: .setPlayerLed 1 2 :: whole 6 ++ [.setPlayerLed 1 3]
  have hrun : CommandRun es _ :=
    .cons rfl <| .cons rfl <| .cons rfl <| .cons rfl <| .cons rfl <| .cons rfl <| .cons rfl <|
      .cons rfl <| .cons rfl <| .cons rfl <| .cons rfl <| .cons rfl <| .cons rfl <| .nil _
  exact ⟨es, _, hrun, rfl, CommandRun.obeys hrun⟩

end ProConDSU
