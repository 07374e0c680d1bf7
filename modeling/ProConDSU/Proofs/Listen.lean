import ProConDSU.Proofs.Accepted

/-!
# Serving whatever comes

`listen` hands its handler every datagram, whole and in order, and sends each reply back, until a
datagram does not fit its buffer: `recvfrom` then reports an error, and the loop is left for good
(`keepsServing_iff`).
-/

namespace ProConDSU

variable {σ : Type} (ws : Winsock) (msgHandler : MsgHandler σ)

def arrivals : List Round → List Datagram
  | [] => []
  | ⟨_, .ready d⟩ :: rs => d :: arrivals rs
  | ⟨_, .error⟩ :: rs | ⟨_, .timeout⟩ :: rs | ⟨_, .recvError⟩ :: rs => arrivals rs

/-- No stop is requested, `select` reports no error, and the socket stays usable. -/
def Undisturbed (rounds : List Round) : Prop :=
  ∀ r ∈ rounds, r.stopRequested = false ∧ r.select ≠ .error ∧ r.select ≠ .recvError

/-- The handler returns each time it is called: on each datagram before the first that is too long
for the buffer. -/
def MsgHandler.ReturnsOn (msgHandler : MsgHandler σ) : σ → List Datagram → Prop
  | _, [] => True
  | s, d :: ds => d.payload.length ≤ 512 →
    ∃ reply s', msgHandler d.payload d.sender s = .ok (reply, s') ∧ ReturnsOn msgHandler s' ds

/-- The non-empty replies to datagrams, each with the sender it is for. -/
def repliesTo : σ → List Datagram → List (ByteBuffer × Connection)
  | _, [] => []
  | s, d :: ds =>
    match msgHandler d.payload d.sender s with
    | .error _ => []
    | .ok (reply, s) => (if reply = [] then [] else [(reply, d.sender)]) ++ repliesTo s ds

/-- The loop is still running after these rounds, it has handled every datagram that fits its
buffer, and it has sent the replies. -/
def KeepsServing (s : σ) (rounds : List Round) : Prop :=
  ∃ l, listen ws msgHandler (.start s) rounds = .ok l ∧ l.running = true
    ∧ l.handled = ((arrivals rounds).filter (·.payload.length ≤ 512)).map
      (fun d => (d.payload, d.sender))
    ∧ l.sent = repliesTo msgHandler s ((arrivals rounds).filter (·.payload.length ≤ 512))

section Round

variable {msgHandler} (l : Listening σ) {d : Datagram}

theorem iterate_oversized (h : 512 < d.payload.length) :
    l.iterate ws msgHandler (.ready d) = .ok { l with running := false } := by
  have hrecv := ws.recv_msgsize d.payload (List.replicate 512 0)
    (by rw [List.length_replicate]; exact h)
  rw [Listening.iterate, hrecv]

theorem iterate_fits (h : d.payload.length ≤ 512) {reply : ByteBuffer} {s : σ}
    (hreply : msgHandler d.payload d.sender l.handler = .ok (reply, s)) :
    l.iterate ws msgHandler (.ready d) = .ok {
      running := l.running
      handler := s
      handled := l.handled ++ [(d.payload, d.sender)]
      sent := l.sent ++ if reply = [] then [] else [(reply, d.sender)] } := by
  have hrecv := ws.recv_fits d.payload (List.replicate 512 0)
    (by rw [List.length_replicate]; exact h)
  rw [Listening.iterate, hrecv]
  simp only [List.take_left, hreply, Listening.send]
  rcases reply with _ | ⟨b, bs⟩ <;> simp [bind, Except.bind, pure, Except.pure]

end Round

section Runs

theorem listen_stopped {l : Listening σ} (h : l.running = false) (rounds : List Round) :
    listen ws msgHandler l rounds = .ok l := by
  cases rounds with
  | nil => rfl
  | cons r rs =>
    rcases l with ⟨running, handler, handled, sent⟩
    simp only at h
    simp [listen, h]

theorem listen_cons {l : Listening σ} (h : l.running = true) {r : Round}
    (hr : r.stopRequested = false) (rs : List Round) : listen ws msgHandler l (r :: rs)
      = (l.iterate ws msgHandler r.select).bind fun l => listen ws msgHandler l rs := by
  simp only [listen, h, hr, Bool.not_false, Bool.and_true, if_true]
  rfl

/-- While every datagram fits, each is handled and answered in turn. -/
theorem listen_fits : ∀ (rounds : List Round) (l : Listening σ), l.running = true →
    Undisturbed rounds → msgHandler.ReturnsOn l.handler (arrivals rounds) →
    (∀ d ∈ arrivals rounds, d.payload.length ≤ 512) →
    ∃ l', listen ws msgHandler l rounds = .ok l' ∧ l'.running = true
      ∧ l'.handled = l.handled ++ (arrivals rounds).map (fun d => (d.payload, d.sender))
      ∧ l'.sent = l.sent ++ repliesTo msgHandler l.handler (arrivals rounds)
  | [], l, hl, _, _, _ => ⟨l, rfl, hl, by simp [arrivals], by simp [arrivals, repliesTo]⟩
  | ⟨stop, select⟩ :: rs, l, hl, hquiet, hreturns, hfits => by
    obtain ⟨hstop, hselect, hrecv⟩ := hquiet _ (List.mem_cons_self ..)
    have hrest : Undisturbed rs := fun r hr => hquiet r (List.mem_cons_of_mem _ hr)
    rw [listen_cons ws msgHandler hl hstop]
    cases select with
    | error => exact absurd rfl hselect
    | timeout => exact listen_fits rs l hl hrest hreturns hfits
    | recvError => exact absurd rfl hrecv
    | ready d =>
      have hfit := hfits d (List.mem_cons_self ..)
      obtain ⟨reply, s, hreply, hnext⟩ := hreturns hfit
      rw [iterate_fits ws l hfit hreply]
      obtain ⟨l', hl', hrun, hhandled, hsent⟩ := listen_fits rs
        ⟨l.running, s, l.handled ++ [(d.payload, d.sender)],
          l.sent ++ if reply = [] then [] else [(reply, d.sender)]⟩ hl hrest hnext
        fun d' hd' => hfits d' (List.mem_cons_of_mem _ hd')
      refine ⟨l', hl', hrun, ?_, ?_⟩
      · rw [hhandled, arrivals, List.map_cons, List.append_assoc]
        rfl
      · rw [hsent, arrivals, repliesTo, hreply]
        exact List.append_assoc ..

/-- One datagram that does not fit ends the loop. -/
theorem listen_oversized : ∀ (rounds : List Round) (l : Listening σ), l.running = true →
    Undisturbed rounds → msgHandler.ReturnsOn l.handler (arrivals rounds) →
    (∃ d ∈ arrivals rounds, 512 < d.payload.length) →
    ∃ l', listen ws msgHandler l rounds = .ok l' ∧ l'.running = false
  | [], l, _, _, _, h => by
    obtain ⟨d, hd, -⟩ := h
    cases hd
  | ⟨stop, select⟩ :: rs, l, hl, hquiet, hreturns, h => by
    obtain ⟨hstop, hselect, hrecv⟩ := hquiet _ (List.mem_cons_self ..)
    have hrest : Undisturbed rs := fun r hr => hquiet r (List.mem_cons_of_mem _ hr)
    rw [listen_cons ws msgHandler hl hstop]
    cases select with
    | error => exact absurd rfl hselect
    | timeout => exact listen_oversized rs l hl hrest hreturns h
    | recvError => exact absurd rfl hrecv
    | ready d =>
      rcases Nat.lt_or_ge 512 d.payload.length with hlt | hge
      · rw [iterate_oversized ws l hlt]
        exact ⟨_, listen_stopped ws msgHandler rfl rs, rfl⟩
      · obtain ⟨reply, s, hreply, hnext⟩ := hreturns hge
        obtain ⟨d', hd', hlt⟩ := h
        rw [iterate_fits ws l hge hreply]
        refine listen_oversized rs _ hl hrest hnext ⟨d', ?_, hlt⟩
        rcases List.mem_cons.1 hd' with rfl | hmem
        · omega
        · exact hmem

theorem repliesTo_default (ds : List Datagram) (s : σ) : repliesTo defaultMessageHandler s ds
    = (ds.map fun d => (d.payload, d.sender)).filter (·.1 ≠ []) := by
  induction ds with
  | nil => rfl
  | cons d ds ih =>
    rw [repliesTo, List.map_cons, List.filter_cons]
    simp only [defaultMessageHandler, ih]
    by_cases h : d.payload = [] <;> simp [h]

/-- With the handler that it starts out with, the server is an echo. -/
theorem listen_echoes (s : σ) {rounds : List Round} (hquiet : Undisturbed rounds)
    (hfits : ∀ d ∈ arrivals rounds, d.payload.length ≤ 512) :
    ∃ l, listen ws defaultMessageHandler (.start s) rounds = .ok l
      ∧ l.sent = ((arrivals rounds).map fun d => (d.payload, d.sender)).filter (·.1 ≠ []) := by
  have hreturns : ∀ ds : List Datagram, defaultMessageHandler.ReturnsOn s ds := by
    intro ds
    induction ds with
    | nil => trivial
    | cons d ds ih => exact fun _ => ⟨d.payload, s, rfl, ih⟩
  obtain ⟨l, hl, -, -, hsent⟩ :=
    listen_fits ws defaultMessageHandler rounds (.start s) rfl hquiet (hreturns _) hfits
  refine ⟨l, hl, ?_⟩
  rw [hsent, ← repliesTo_default]
  rfl

/-- The loop keeps serving just when no datagram is longer than its buffer. -/
theorem keepsServing_iff {s : σ} {rounds : List Round} (hquiet : Undisturbed rounds)
    (hreturns : msgHandler.ReturnsOn s (arrivals rounds)) : KeepsServing ws msgHandler s rounds
      ↔ ∀ d ∈ arrivals rounds, d.payload.length ≤ 512 := by
  refine ⟨?_, ?_⟩
  · rintro ⟨l, hl, hrun, -⟩
    by_contra! hlong
    obtain ⟨l', hl', hstop⟩ := listen_oversized ws msgHandler rounds (.start s) rfl hquiet
      hreturns hlong
    rw [hl'] at hl
    cases hl
    rw [hrun] at hstop
    cases hstop
  · intro hfits
    obtain ⟨l, hl, hrun, hhandled, hsent⟩ :=
      listen_fits ws msgHandler rounds (.start s) rfl hquiet hreturns hfits
    have hall : (arrivals rounds).filter (·.payload.length ≤ 512) = arrivals rounds :=
      List.filter_eq_self.2 fun d hd => by simpa using hfits d hd
    rw [KeepsServing, hall]
    exact ⟨l, hl, hrun, hhandled, hsent⟩

end Runs

/-- `handleMessage`, which finds another stack at each call. -/
def DsuServer.handler : MsgHandler (DsuServer × (ℕ → Stack)) := fun buf conn s =>
  (s.1.handleMessage (s.2 0) buf conn).map fun r => (r.1, r.2, fun n => s.2 (n + 1))

/-- It returns on all but the datagrams whose `ports` wraps. -/
theorem DsuServer.handler_returnsOn : ∀ (ds : List Datagram) (s : DsuServer × (ℕ → Stack)),
    (∀ d ∈ ds, ¬ WrapsPorts d.payload) → handler.ReturnsOn s ds
  | [], _, _ => trivial
  | d :: ds, s, h => by
    intro hfits
    rcases hm : s.1.handleMessage (s.2 0) d.payload d.sender with f | ⟨reply, srv⟩
    · have hwraps := ((handleMessage_throws (hfits.trans (by decide))).1 hm).2
      exact absurd hwraps (h d (List.mem_cons_self ..))
    · exact ⟨reply, (srv, fun n => s.2 (n + 1)), by rw [handler, hm]; rfl,
        handler_returnsOn ds _ fun d' hd' => h d' (List.mem_cons_of_mem _ hd')⟩

/-- `recvfrom` as it is documented. -/
def Winsock.documented : Winsock where
  recvfrom d buf := if d.length ≤ buf.length then some (d.length, d ++ buf.drop d.length) else none
  recv_fits _ _ h := if_pos h
  recv_msgsize _ _ h := if_neg (by omega)

def versionDatagram : Datagram :=
  ⟨clientPacket .protocolVersionMessage [], ⟨7, 8⟩, by decide⟩

theorem keepsServing_iff_version :
    KeepsServing .documented DsuServer.handler (⟨.empty, 7, 0⟩, fun _ => .filled 0)
      [⟨false, .timeout⟩, ⟨false, .ready versionDatagram⟩] := by
  have hwraps : ∀ d ∈ [versionDatagram], ¬ WrapsPorts d.payload := by
    intro d hd
    rw [List.mem_singleton.1 hd, ← requestOf_faults]
    decide
  exact (keepsServing_iff .documented DsuServer.handler (by simp [Undisturbed])
    (DsuServer.handler_returnsOn [versionDatagram] _ hwraps)).2 (by decide)

def oversized : Datagram :=
  ⟨List.replicate 513 0, ⟨7, 8⟩, by rw [List.length_replicate]; decide⟩

theorem oversized_length : 512 < oversized.payload.length := by
  rw [oversized, List.length_replicate]
  decide

theorem not_keepsServing_oversized : Undisturbed [⟨false, .ready oversized⟩]
    ∧ DsuServer.handler.ReturnsOn (⟨.empty, 7, 0⟩, fun _ => .filled 0) [oversized]
    ∧ ¬ KeepsServing .documented DsuServer.handler (⟨.empty, 7, 0⟩, fun _ => .filled 0)
      [⟨false, .ready oversized⟩] := by
  refine ⟨by simp [Undisturbed], fun hfits => absurd hfits (not_le.2 oversized_length), ?_⟩
  rintro ⟨l, hl, hrun, -⟩
  rw [listen_cons _ _ rfl rfl, iterate_oversized _ _ oversized_length] at hl
  cases hl
  cases hrun

end ProConDSU
