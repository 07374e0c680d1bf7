import ProConDSU.DsuServer
import ProConDSU.Proofs.Reader

/-!
# What a datagram asks for

`requestOf` reads a datagram as the request it makes, if any, and `DsuServer.answer` is what the
server does with it; `handleMessage` is the two in turn (`handleMessage_eq`). What depends on the
decoders is settled here once: no read in an accepted envelope fails, and the only fault is the
resize to a negative `ports` that wraps past the length check
(`ControllersInfoRequest.deserialize_wraps`).
-/

namespace ProConDSU

section Decoders

variable {buf : ByteBuffer}

theorem strncmp_eq_zero : ∀ (n : ℕ) (s t : List UInt8), n ≤ s.length → n ≤ t.length →
    (∀ b ∈ t.take n, b ≠ 0) → (strncmp s t n = 0 ↔ s.take n = t.take n)
  | 0, _, _, _, _, _ => by simp [strncmp]
  | n + 1, [], _, hs, _, _ => by simp at hs
  | n + 1, _, [], _, ht, _ => by simp at ht
  | n + 1, a :: s, b :: t, hs, ht, h => by
    have ih := strncmp_eq_zero n s t (by simpa using hs) (by simpa using ht)
      fun c hc => h c (by simp [hc])
    by_cases hab : a = b
    · subst hab
      have ha : a ≠ 0 := h a (by simp)
      simpa [strncmp, ha] using ih
    · have hne : (a.toNat : ℤ) - b.toNat ≠ 0 := fun h0 => hab (UInt8.toNat_inj.1 (by omega))
      simp [strncmp, hab, hne]

/-- The envelope `handleMessage` accepts. -/
def Enveloped (buf : ByteBuffer) : Prop := 20 ≤ buf.length ∧ bytesAt buf 0 4 = dsuc

instance (buf : ByteBuffer) : Decidable (Enveloped buf) := inferInstanceAs (Decidable (_ ∧ _))

theorem strncmp_dsuc (h : 20 ≤ buf.length) : strncmp buf dsuc 4 = 0 ↔ bytesAt buf 0 4 = dsuc := by
  have hne : ∀ b ∈ dsuc.take 4, b ≠ 0 := by simp [dsuc]
  rw [strncmp_eq_zero 4 buf dsuc (by omega) (by decide) hne]
  rfl

theorem isValidMessage_eq (h : Enveloped buf) : isValidMessage buf = .none := by
  have := (strncmp_dsuc h.1).2 h.2
  rw [isValidMessage, if_neg (by have := h.1; omega), if_neg (by simpa using this)]

theorem isValidMessage_ne (h : ¬ Enveloped buf) : isValidMessage buf ≠ .none := by
  unfold isValidMessage
  split_ifs with h20 hstr
  · simp
  · simp
  · exact absurd ⟨by omega, (strncmp_dsuc (by omega)).1 (not_not.1 hstr)⟩ h

def packetOf (buf : ByteBuffer) : Packet where
  header := ⟨valueAt _ buf 0, valueAt _ buf 4, valueAt _ buf 6, valueAt _ buf 8, valueAt _ buf 12⟩
  type := valueAt _ buf 16
  body := buf.drop 20

theorem Packet.deserialize_ok (hbuf : buf.length ≤ maxSize) (h : Enveloped buf) (self : Packet) :
    deserialize buf self = .ok (.none, packetOf buf) := by
  have h20 := h.1
  have h64 : buf.length < 2 ^ 64 := hbuf.trans_lt (by decide)
  have hrest : bytesAt buf 20 (buf.length - 20) = buf.drop 20 := by
    rw [bytesAt, ← List.length_drop, List.take_length]
  rcases Nat.eq_or_lt_of_le h20 with heq | hlt
  · refine Decode.run_of_next (r := ⟨20, h20⟩) ?_
    simp (disch := simp; try omega) only [isValidMessage_eq h, Decode.bind_apply, Decode.pure_apply,
      Decode.read_apply, Decode.assign_apply, Decode.remaining_apply, Decode.resize_apply,
      BinaryReader.start, if_neg, ne_eq, not_true_eq_false, ↓reduceIte]
    have : buf.drop 20 = [] := List.drop_eq_nil_of_le heq.ge
    simp [packetOf, Packet.mapHeader, this, ← heq]
  · refine Decode.run_of_next (r := ⟨20 + (buf.length - 20), by omega⟩) ?_
    simp (disch := simp; try omega) only [isValidMessage_eq h, Decode.bind_apply,
      Decode.read_apply, Decode.readBytes_apply, Decode.assign_apply,
      Decode.remaining_apply, Decode.resize_apply, BinaryReader.start, if_pos, ne_eq,
      not_true_eq_false, ↓reduceIte]
    simp [packetOf, Packet.mapHeader, hrest]

theorem Packet.deserialize_invalid (h : ¬ Enveloped buf) (self : Packet) :
    deserialize buf self = .ok (isValidMessage buf, self) := by
  simp only [deserialize, Decode.run, Decode.bind_apply, isValidMessage_ne h, ne_eq,
    not_false_eq_true, if_true, Decode.fail_apply]

def identifierOf (body : ByteBuffer) : ControllerIdentifier :=
  ⟨⟨valueAt _ body 0⟩, valueAt _ body 1, valueAt _ body 2⟩

theorem ControllerIdentifier.deserialize_ok (h : 8 ≤ buf.length) (self : ControllerIdentifier) :
    deserialize buf self = .ok (.none, identifierOf buf) := by
  refine Decode.run_of_next (r := ⟨8, h⟩) ?_
  simp (disch := simp; try omega) only [Decode.bind_apply, Decode.ite_apply, Decode.fail_apply,
    Decode.read_apply, Decode.readBytes_apply, Decode.assign_apply, BinaryReader.start,
    if_neg]
  rfl

theorem ControllerIdentifier.deserialize_short (h : buf.length < 8) (self : ControllerIdentifier) :
    deserialize buf self = .ok (.errInvalidLength, self) := by
  simp only [deserialize, Decode.run, Decode.bind_apply, h, if_true, Decode.fail_apply]

theorem ControllersDataRequest.deserialize_eq (self : ControllersDataRequest) :
    deserialize buf self = if buf.length = 8 then .ok (.none, ⟨identifierOf buf⟩)
      else .ok (.errInvalidLength, self) := by
  simp only [deserialize, Decode.run, Decode.bind_apply, Decode.ite_apply, Decode.fail_apply,
    ite_not]
  split_ifs with h
  · rw [Decode.member, ControllerIdentifier.deserialize_ok h.ge]
  · rfl

theorem ControllersMotorsRequest.deserialize_eq (self : ControllersMotorsRequest) :
    deserialize buf self = if 8 ≤ buf.length then .ok (.none, ⟨identifierOf buf⟩)
      else .ok (.errInvalidLength, self) := by
  rw [deserialize, Decode.run, Decode.member]
  split_ifs with h
  · rw [ControllerIdentifier.deserialize_ok h]
  · rw [ControllerIdentifier.deserialize_short (by omega)]

theorem ControllersMotorsRumbleRequest.deserialize_eq (self : ControllersMotorsRumbleRequest) :
    deserialize buf self
      = if buf.length = 10 then .ok (.none, ⟨identifierOf buf, buf.getD 8 0, buf.getD 9 0⟩)
        else .ok (.errInvalidLength, self) := by
  simp only [deserialize, Decode.run, Decode.bind_apply, Decode.ite_apply, Decode.fail_apply,
    Decode.assign_apply, ite_not]
  split_ifs with h
  · rw [Decode.member, ControllerIdentifier.deserialize_ok (by omega)]
  · rfl

def portsOf (body : ByteBuffer) : ℤ := (valueAt Int32 body 0).toInt

theorem portsOf_bounds (body : ByteBuffer) : -2 ^ 31 ≤ portsOf body ∧ portsOf body < 2 ^ 31 :=
  ⟨Int32.le_toInt _, Int32.toInt_lt _⟩

theorem ControllersInfoRequest.deserialize_ok (h4 : 4 ≤ buf.length) (h8 : buf.length ≤ 8)
    (h0 : 0 ≤ portsOf buf) (hp : 4 + portsOf buf ≤ buf.length) (self : ControllersInfoRequest) :
    deserialize buf self
      = .ok (.none, ⟨valueAt _ buf 0, bytesAt buf 4 (portsOf buf).toNat⟩) := by
  have hbuf : buf.length ≤ maxSize := h8.trans (by decide)
  have hports : (valueAt Int32 buf 0).toInt = portsOf buf := rfl
  have hs : sizeT (portsOf buf) = (portsOf buf).toNat := sizeT_eq h0 (by omega)
  have hs4 : sizeT (4 + (portsOf buf).toNat) = 4 + (portsOf buf).toNat := by
    rw [sizeT_eq (by omega) (by omega)]
    omega
  have hmax : (portsOf buf).toNat ≤ maxSize := by omega
  refine Decode.run_of_next (r := ⟨4 + (portsOf buf).toNat, by omega⟩) ?_
  simp (disch := simp; try omega) only [Decode.bind_apply, Decode.fail_apply, Decode.read_apply,
    Decode.readBytes_apply, Decode.assign_apply, Decode.ite_apply,
    Decode.resize_apply _ _ _ hmax, BinaryReader.start, hports, hs, hs4, if_neg]
  rfl

/-- Between `-4` and `-1` the converted count wraps past the length check, and the vector cannot
hold it. -/
theorem ControllersInfoRequest.deserialize_wraps (h4 : 4 ≤ buf.length) (h8 : buf.length ≤ 8)
    (hp : -4 ≤ portsOf buf) (h0 : portsOf buf < 0) (self : ControllersInfoRequest) :
    deserialize buf self = .error .lengthError := by
  have hports : (valueAt Int32 buf 0).toInt = portsOf buf := rfl
  have hs4 : sizeT (4 + sizeT (portsOf buf)) ≤ 4 := by
    unfold sizeT
    omega
  have hmax : maxSize < sizeT (portsOf buf) := by
    unfold sizeT maxSize
    omega
  simp (disch := simp; try omega) only [deserialize, Decode.run, Decode.bind_apply,
    Decode.read_apply, Decode.assign_apply, Decode.resize, BinaryReader.start, hports, hmax,
    if_neg, if_true]

theorem ControllersInfoRequest.deserialize_length (h : buf.length < 4 ∨ 8 < buf.length)
    (self : ControllersInfoRequest) : deserialize buf self = .ok (.errInvalidLength, self) := by
  simp only [deserialize, Decode.run, Decode.bind_apply, h, if_true, Decode.fail_apply]

/-- A count that is refused has been stored. -/
theorem ControllersInfoRequest.deserialize_count (h4 : 4 ≤ buf.length) (h8 : buf.length ≤ 8)
    (h : ¬ (-4 ≤ portsOf buf ∧ 4 + portsOf buf ≤ buf.length)) (self : ControllersInfoRequest) :
    deserialize buf self = .ok (.errParseError, { self with ports := valueAt _ buf 0 }) := by
  have hports : (valueAt Int32 buf 0).toInt = portsOf buf := rfl
  -- below -4 the sum is a huge size_t, and above it does not wrap
  have hs4 : buf.length < sizeT (4 + sizeT (portsOf buf)) := by
    have := portsOf_bounds buf
    unfold sizeT
    omega
  simp (disch := simp; try omega) only [deserialize, Decode.run, Decode.bind_apply,
    Decode.fail_apply, Decode.read_apply, Decode.assign_apply, BinaryReader.start, hports,
    hs4, if_neg, if_true]

theorem ControllersInfoRequest.deserialize_eq (self : ControllersInfoRequest) :
    deserialize buf self
      = if buf.length < 4 ∨ 8 < buf.length then .ok (.errInvalidLength, self)
        else if -4 ≤ portsOf buf ∧ 4 + portsOf buf ≤ buf.length then
          if 0 ≤ portsOf buf then .ok (.none, ⟨valueAt _ buf 0, bytesAt buf 4 (portsOf buf).toNat⟩)
          else .error .lengthError
        else .ok (.errParseError, { self with ports := valueAt _ buf 0 }) := by
  split_ifs with hlen hcount h0
  · exact deserialize_length hlen self
  · exact deserialize_ok (by omega) (by omega) h0 hcount.2 self
  · exact deserialize_wraps (by omega) (by omega) hcount.1 (by omega) self
  · exact deserialize_count (by omega) (by omega) hcount self

theorem ControllersInfoRequest.deserialize_err
    (h : ¬ (4 ≤ buf.length ∧ buf.length ≤ 8 ∧ -4 ≤ portsOf buf ∧ 4 + portsOf buf ≤ buf.length))
    (self : ControllersInfoRequest) :
    ∃ err self', err ≠ .none ∧ deserialize buf self = .ok (err, self') := by
  rw [deserialize_eq]
  split_ifs with hlen hcount h0
  · exact ⟨_, _, by simp, rfl⟩
  · omega
  · omega
  · exact ⟨_, _, by simp, rfl⟩

end Decoders

/-- What a datagram asks for. -/
inductive Request
  | dropped
  /-- An info request whose `ports` wraps. -/
  | faults
  | version
  | info (slots : ByteBuffer)
  | data (id : ControllerIdentifier)
  | motors (id : ControllerIdentifier)
  | rumble
  deriving DecidableEq

def infoRequest (body : ByteBuffer) : Request :=
  if 4 ≤ body.length ∧ body.length ≤ 8 ∧ -4 ≤ portsOf body ∧ 4 + portsOf body ≤ body.length then
    if 0 ≤ portsOf body then .info (bytesAt body 4 (portsOf body).toNat) else .faults
  else .dropped

def Packet.request (p : Packet) : Request :=
  if p.type = .protocolVersionMessage then .version
  else if p.type = .controllersInfoMessage then infoRequest p.body
  else if p.type = .controllersDataMessage then
    if p.body.length = 8 then .data (identifierOf p.body) else .dropped
  else if p.type = .controllersMotorsInfoMessage then
    if 8 ≤ p.body.length then .motors (identifierOf p.body) else .dropped
  else if p.type = .controllersMotorsRumbleMessage then
    if p.body.length = 10 then .rumble else .dropped
  else .dropped

def requestOf (buf : ByteBuffer) : Request :=
  if Enveloped buf then (packetOf buf).request else .dropped

theorem Packet.request_eq_data {p : Packet} {id : ControllerIdentifier} : p.request = .data id
    ↔ p.type = .controllersDataMessage ∧ p.body.length = 8 ∧ identifierOf p.body = id := by
  refine ⟨fun h => ?_, ?_⟩
  · unfold request infoRequest at h
    split_ifs at h with _ _ _ _ htype hlen
    exact ⟨htype, hlen, Request.data.inj h⟩
  · rintro ⟨htype, hlen, rfl⟩
    rw [request, if_neg (by rw [htype]; decide), if_neg (by rw [htype]; decide), if_pos htype,
      if_pos hlen]

namespace DsuServer

def answer (stack : Stack) (srv : DsuServer) : Request → Exec (Option ByteBuffer × DsuServer)
  | .dropped => .ok (none, srv)
  | .faults => .error .lengthError
  | .version =>
    .ok (some ({ stack.pvrs with version := 1001 } : ProtocolVersionResponse).serialize, srv)
  | .info _ => .ok (some (buildControllersInfoResponse stack srv).serialize, srv)
  | .data id =>
    .ok (some (buildControllerDataResponse stack srv id.slot.toNat).1.serialize,
      (buildControllerDataResponse stack srv id.slot.toNat).2)
  | .motors id => .ok (some (motorsResponse stack id.slot).serialize, srv)
  | .rumble => .ok (some [], srv)

variable (stack : Stack) (srv : DsuServer)

theorem readRequest_none {buf : ByteBuffer} (h : ¬ Enveloped buf) :
    readRequest stack buf = .ok none := by
  unfold readRequest
  split_ifs with h20 hstr
  · rfl
  · rfl
  · exact absurd ⟨by omega, (strncmp_dsuc (by omega)).1 (not_not.1 hstr)⟩ h

theorem readRequest_eq {buf : ByteBuffer} (hbuf : buf.length ≤ maxSize) :
    readRequest stack buf = .ok (if Enveloped buf then some (packetOf buf) else none) := by
  split_ifs with h
  · rw [readRequest, if_neg (by have := h.1; omega),
      if_neg (by simpa using (strncmp_dsuc h.1).2 h.2), Packet.deserialize_ok hbuf h]
  · exact readRequest_none stack h

/-- What the `switch` makes of a request. -/
def caseOf : Request → Exec Case
  | .dropped => .ok .returns
  | .faults => .error .lengthError
  | .version => .ok (.replies ({ stack.pvrs with version := 1001 } :
    ProtocolVersionResponse).serialize)
  | .info _ => .ok (.replies (buildControllersInfoResponse stack srv).serialize)
  | .data id => .ok (.data id.slot.toNat)
  | .motors id => .ok (.replies (motorsResponse stack id.slot).serialize)
  | .rumble => .ok (.replies [])

theorem switch_info (body : ByteBuffer) :
    afterDecode (ControllersInfoRequest.deserialize body ⟨stack.ports, []⟩)
        (fun _ => .replies (buildControllersInfoResponse stack srv).serialize)
      = srv.caseOf stack (infoRequest body) := by
  unfold infoRequest
  split_ifs with h h0
  · rw [ControllersInfoRequest.deserialize_ok h.1 h.2.1 h0 h.2.2.2]
    rfl
  · rw [ControllersInfoRequest.deserialize_wraps h.1 h.2.1 h.2.2.1 (by omega)]
    rfl
  · obtain ⟨err, self', hne, heq⟩ := ControllersInfoRequest.deserialize_err h ⟨stack.ports, []⟩
    rw [heq]
    cases err <;> first | rfl | exact absurd rfl hne

theorem switch_eq (p : Packet) : srv.switch stack p = srv.caseOf stack p.request := by
  unfold switch Packet.request
  split_ifs with h1 h2 h3 hlen h4 hlen h5 hlen
  · rfl
  · exact switch_info stack srv p.body
  · rw [ControllersDataRequest.deserialize_eq, if_pos hlen]
    rfl
  · rw [ControllersDataRequest.deserialize_eq, if_neg hlen]
    rfl
  · rw [ControllersMotorsRequest.deserialize_eq, if_pos hlen]
    rfl
  · rw [ControllersMotorsRequest.deserialize_eq, if_neg hlen]
    rfl
  · rw [ControllersMotorsRumbleRequest.deserialize_eq, if_pos hlen]
    rfl
  · rw [ControllersMotorsRumbleRequest.deserialize_eq, if_neg hlen]
    rfl
  · rfl

theorem answer_eq (r : Request) :
    srv.answer stack r = (srv.caseOf stack r).map (srv.replyBody stack) := by
  cases r <;> rfl

def finish (type : MessageType) :
    Exec (Option ByteBuffer × DsuServer) → Exec (ByteBuffer × DsuServer)
  | .error f => .error f
  | .ok (none, srv) => .ok ([], srv)
  | .ok (some body, srv) => .ok (srv.reply stack type body, srv)

/-- The handler reads a request and answers it. -/
theorem handleMessage_eq {buf : ByteBuffer} (hbuf : buf.length ≤ maxSize) (conn : Connection) :
    srv.handleMessage stack buf conn
      = finish stack (valueAt _ buf 16) (srv.answer stack (requestOf buf)) := by
  rw [handleMessage, readRequest_eq stack hbuf, requestOf]
  split_ifs with h
  · simp only
    rw [switch_eq, answer_eq]
    rcases srv.caseOf stack (packetOf buf).request with f | case
    · rfl
    · simp only [Except.map]
      rcases srv.replyBody stack case with ⟨_ | body, srv'⟩ <;> rfl
  · rfl

theorem handleMessage_of_answer {stack : Stack} {srv srv' : DsuServer} {buf body : ByteBuffer}
    (hbuf : buf.length ≤ maxSize) (h : srv.answer stack (requestOf buf) = .ok (some body, srv'))
    (conn : Connection) : srv.handleMessage stack buf conn
      = .ok (srv'.reply stack (valueAt _ buf 16) body, srv') := by
  rw [handleMessage_eq stack srv hbuf, h]
  rfl

/-- The handler drops a buffer and stays as it was, or replies with the body of its answer. -/
theorem handleMessage_cases {stack : Stack} {srv srv' : DsuServer} {buf reply : ByteBuffer}
    {conn : Connection} (hbuf : buf.length ≤ maxSize)
    (h : srv.handleMessage stack buf conn = .ok (reply, srv')) :
    (requestOf buf = .dropped ∧ reply = [] ∧ srv' = srv)
      ∨ ∃ body, srv.answer stack (requestOf buf) = .ok (some body, srv')
        ∧ reply = srv'.reply stack (valueAt _ buf 16) body := by
  rw [handleMessage_eq stack srv hbuf] at h
  rcases ha : srv.answer stack (requestOf buf) with f | ⟨_ | body, srv₁⟩ <;> rw [ha] at h <;>
    simp only [finish, reduceCtorEq, Except.ok.injEq, Prod.mk.injEq] at h
  · obtain ⟨rfl, rfl⟩ := h
    rcases hr : requestOf buf <;> rw [hr] at ha <;> simp [answer] at ha
    exact .inl ⟨rfl, rfl, ha.symm⟩
  · obtain ⟨rfl, rfl⟩ := h
    exact .inr ⟨body, rfl, rfl⟩

end DsuServer

theorem enveloped_of_request {buf : ByteBuffer} (h : requestOf buf ≠ .dropped) : Enveloped buf := by
  by_contra hne
  exact h (if_neg hne)

end ProConDSU
