import Mathlib.Data.List.Nodup
import MiniOcs.Uds.AnyLink
import MiniOcs.Uds.Equivalence

/-!
# Requests and their responses

What a call adds to the log of a session: how many frames of which type, under which ids, and
which frames it accepts. A response is accepted right behind the request it answers, on one
connection.
-/
namespace MiniOcs.Uds.AnyLink

/-! ## Logs -/

def Event.frame? : Event → Option Frame
  | .sent _ frame => some frame
  | _ => none

def sentFrames (log : List Event) : List Frame := log.filterMap Event.frame?

def sentIds (log : List Event) : List (BitVec 64) := (sentFrames log).map Frame.requestId

/-- The frames of one type. -/
def framesOf (type : MessageType) (log : List Event) : List Frame :=
  (sentFrames log).filter fun frame => frame.messageType = type

/-- The code of a response is the one behind the code of its request. -/
def responseTypeOf (type : MessageType) : MessageType := ⟨type.code + 1⟩

/-- The frame answers the request that was sent right before, on the connection it came by. -/
structure AnswersLast (before : List Event) (request response : Frame) : Prop where
  events : ∃ earlier fd packet, before = earlier ++ [.sent fd request, .received fd packet] ∧
    decode packet = some (.ok response)
  id : response.requestId = request.requestId
  type : response.messageType = responseTypeOf request.messageType ∨
    response.messageType = .errorReply

/-- Every accepted frame answers the request before it. -/
def Answered (log : List Event) : Prop :=
  ∀ before after response, log = before ++ .accepted response :: after →
    ∃ request, AnswersLast before request response

/-- The ids of the sent frames were taken one after the other, from the counts `low` to `high`. -/
def Numbered (low high : Nat) (log : List Event) : Prop :=
  ∃ counts : List Nat, sentIds log = counts.map (fun n => BitVec.ofNat 64 (n + 1)) ∧
    counts.Pairwise (· < ·) ∧ ∀ n ∈ counts, low ≤ n ∧ n < high

theorem sentIds_append (a b : List Event) : sentIds (a ++ b) = sentIds a ++ sentIds b := by
  simp [sentIds, sentFrames]

theorem framesOf_append (type : MessageType) (a b : List Event) :
    framesOf type (a ++ b) = framesOf type a ++ framesOf type b := by
  simp [framesOf, sentFrames]

theorem Answered.nil : Answered [] := by
  intro before after response h
  cases before <;> cases h

theorem AnswersLast.prepend {before : List Event} {request response : Frame}
    (h : AnswersLast before request response) (log : List Event) :
    AnswersLast (log ++ before) request response := by
  obtain ⟨⟨earlier, fd, packet, rfl, hdecode⟩, hid, htype⟩ := h
  exact ⟨⟨log ++ earlier, fd, packet, by simp, hdecode⟩, hid, htype⟩

theorem Answered.append {a b : List Event} (ha : Answered a) (hb : Answered b) :
    Answered (a ++ b) := by
  intro before after response h
  rcases List.append_eq_append_iff.mp h with ⟨c, rfl, hc⟩ | ⟨c, hc, hafter⟩
  · obtain ⟨request, hrequest⟩ := hb c after response hc
    exact ⟨request, hrequest.prepend a⟩
  · cases c with
    | nil =>
        obtain ⟨request, ⟨earlier, fd, packet, hnil, -⟩, -, -⟩ := hb [] after response hafter.symm
        simp at hnil
    | cons event c =>
        obtain ⟨rfl, -⟩ := List.cons.inj hafter
        exact ha before c response hc

/-- Events that accept nothing. -/
theorem Answered.of_none {log : List Event} (h : ∀ response, Event.accepted response ∉ log) :
    Answered log := by
  intro before after response heq
  exact absurd (by simp [heq]) (h response)

theorem Numbered.nil (n : Nat) : Numbered n n [] := ⟨[], rfl, .nil, by simp⟩

theorem Numbered.mono {low high low' high' : Nat} {log : List Event} (h : Numbered low high log)
    (hlow : low' ≤ low) (hhigh : high ≤ high') : Numbered low' high' log := by
  obtain ⟨counts, hids, hsorted, hbounds⟩ := h
  exact ⟨counts, hids, hsorted, fun n hn => by
    have hn := hbounds n hn
    omega⟩

theorem Numbered.append {low mid high : Nat} {a b : List Event} (ha : Numbered low mid a)
    (hb : Numbered mid high b) (hlow : low ≤ mid) (hhigh : mid ≤ high) :
    Numbered low high (a ++ b) := by
  obtain ⟨counts, hids, hsorted, hbounds⟩ := ha
  obtain ⟨counts', hids', hsorted', hbounds'⟩ := hb
  refine ⟨counts ++ counts', by rw [sentIds_append, hids, hids', List.map_append], ?_, ?_⟩
  · refine List.pairwise_append.mpr ⟨hsorted, hsorted', fun n hn m hm => ?_⟩
    have hn := hbounds n hn
    have hm := hbounds' m hm
    omega
  · intro n hn
    rcases List.mem_append.mp hn with hn | hn
    · have hn := hbounds n hn
      omega
    · have hn := hbounds' n hn
      omega

/-- Below 2^64 requests no id is used twice. -/
theorem Numbered.nodup {low high : Nat} {log : List Event} (h : Numbered low high log)
    (hhigh : high < 18446744073709551616) : (sentIds log).Nodup := by
  obtain ⟨counts, hids, hsorted, hbounds⟩ := h
  rw [hids]
  refine (List.nodup_map_iff_inj_on (hsorted.imp fun hlt => ne_of_lt hlt)).mpr ?_
  intro n hn m hm heq
  have hn := hbounds n hn
  have hm := hbounds m hm
  have hval := congrArg BitVec.toNat heq
  simp only [BitVec.toNat_ofNat] at hval
  omega

/-! ## Steps of a session -/

variable {ω : Type}

/-- The next id is the number of ids taken so far, plus one. -/
def Counted (s : Session ω) : Prop := s.nextRequestId = BitVec.ofNat 64 (s.drawn + 1)

/-- What a step adds to a session; `quota` bounds its frames of each type but the greeting. -/
structure Adds (quota : MessageType → Nat) (s t : Session ω) (events : List Event) : Prop where
  log : t.log = s.log ++ events
  drawn : s.drawn ≤ t.drawn
  counted : Counted s → Counted t
  numbered : Counted s → Numbered s.drawn t.drawn events
  quota : ∀ type, type ≠ .hello → (framesOf type events).length ≤ quota type
  answered : Answered events

/-- One frame of a type. -/
def once (type : MessageType) (t : MessageType) : Nat := if t = type then 1 else 0

theorem Adds.of_silent {s t : Session ω} (hlog : t.log = s.log)
    (hid : t.nextRequestId = s.nextRequestId) (hdrawn : t.drawn = s.drawn) :
    Adds (fun _ => 0) s t [] where
  log := by simp [hlog]
  drawn := by omega
  counted h := by
    unfold Counted at h ⊢
    rw [hid, hdrawn, h]
  numbered _ := by
    rw [hdrawn]
    exact .nil _
  quota _ _ := by simp [framesOf, sentFrames]
  answered := .nil

theorem Adds.refl (s : Session ω) : Adds (fun _ => 0) s s [] := .of_silent rfl rfl rfl

theorem Adds.mono {quota quota' : MessageType → Nat} {s t : Session ω} {events : List Event}
    (h : Adds quota s t events) (hle : ∀ type, quota type ≤ quota' type) :
    Adds quota' s t events :=
  { h with quota := fun type htype => (h.quota type htype).trans (hle type) }

theorem Adds.trans {quota quota' : MessageType → Nat} {s t u : Session ω} {a b : List Event}
    (h : Adds quota s t a) (h' : Adds quota' t u b) :
    Adds (fun type => quota type + quota' type) s u (a ++ b) where
  log := by rw [h'.log, h.log, List.append_assoc]
  drawn := h.drawn.trans h'.drawn
  counted hs := h'.counted (h.counted hs)
  numbered hs := (h.numbered hs).append (h'.numbered (h.counted hs)) h.drawn h'.drawn
  quota type htype := by
    rw [framesOf_append, List.length_append]
    exact Nat.add_le_add (h.quota type htype) (h'.quota type htype)
  answered := h.answered.append h'.answered

/-- An event that is no frame. -/
theorem Adds.note (s : Session ω) {event : Event} (hframe : event.frame? = none)
    (hevent : ∀ response, event ≠ .accepted response) : Adds (fun _ => 0) s (s.note event) [event] where
  log := rfl
  drawn := le_refl _
  counted h := h
  numbered _ := ⟨[], by simp [sentIds, sentFrames, hframe], .nil, by simp⟩
  quota _ _ := by simp [framesOf, sentFrames, hframe]
  answered := .of_none fun response hmem => hevent response (List.mem_singleton.mp hmem).symm

/-! ## One exchange -/

/-- How far an exchange of one frame gets. Only the last case reads a frame. -/
inductive Trace (request : Frame) (responseType : MessageType) :
    Except String (Except Error Frame) → List Event → Prop
  | unsent {e} : Trace request responseType (.ok (.error e)) []
  | unanswered {e} (fd : Nat) : Trace request responseType (.ok (.error e)) [.sent fd request]
  | refused {e} (fd : Nat) (packet : List Byte) :
      Trace request responseType (.ok (.error e)) [.sent fd request, .received fd packet]
  | error {outcome} (fd : Nat) (packet : List Byte) {frame : Frame}
      (hdecode : decode packet = some (.ok frame)) (hid : frame.requestId = request.requestId)
      (htype : frame.messageType = .errorReply) (hfailed : ∀ frame, outcome ≠ .ok (.ok frame)) :
      Trace request responseType outcome
        [.sent fd request, .received fd packet, .accepted frame]
  | answered (fd : Nat) (packet : List Byte) {frame : Frame}
      (hdecode : decode packet = some (.ok frame)) (hid : frame.requestId = request.requestId)
      (htype : frame.messageType = responseType) : Trace request responseType (.ok (.ok frame))
        [.sent fd request, .received fd packet, .accepted frame]

section Client

variable (codec : JsonCodec) (kernel : Kernel ω)

theorem checkPacket_ok {request frame : Frame} {packet : List Byte}
    (h : checkPacket request packet = .ok frame) :
    decode packet = some (.ok frame) ∧ frame.requestId = request.requestId := by
  unfold checkPacket at h
  split_ifs at h
  split at h
  · cases h
  · cases h
  · rename_i frame' hdecode
    split_ifs at h with hid
    cases h
    exact ⟨hdecode, not_not.mp hid⟩

/-- The session after an exchange of one frame: the world has moved on, and the log has grown. -/
def grown (s : Session ω) (world : ω) (events : List Event) : Session ω :=
  { s with world, log := s.log ++ events }

theorem readReply_trace (fd : Nat) (request : Frame) (responseType : MessageType)
    (packet : List Byte) (s : Session ω) (world : ω) :
    ∃ events, (readReply codec request responseType packet
        (grown s world [.sent fd request, .received fd packet])).2 = grown s world events ∧
      Trace request responseType (readReply codec request responseType packet
        (grown s world [.sent fd request, .received fd packet])).1 events := by
  unfold readReply
  split
  · exact ⟨_, rfl, .refused fd packet⟩
  · rename_i frame hcheck
    obtain ⟨hdecode, hid⟩ := checkPacket_ok hcheck
    split_ifs with herror htype
    · refine ⟨_, by simp [grown, Session.note], .error fd packet hdecode hid herror ?_⟩
      intro frame'
      cases decodeError codec frame.payload <;> simp [Except.map]
    · exact ⟨_, rfl, .refused fd packet⟩
    · exact ⟨_, by simp [grown, Session.note], .answered fd packet hdecode hid (not_not.mp htype)⟩

theorem sendAndReceive_trace (request : Frame) (responseType : MessageType) (s : Session ω) :
    ∃ world events, (sendAndReceiveLocked codec kernel request responseType s).2 =
        grown s world events ∧
      Trace request responseType (sendAndReceiveLocked codec kernel request responseType s).1
        events := by
  unfold sendAndReceiveLocked
  split
  · exact ⟨s.world, [], by simp [grown], .unsent⟩
  · split
    · exact ⟨s.world, [], by simp [grown], .unsent⟩
    · rename_i fd _
      split
      · rename_i text world _
        exact ⟨world, [.sent fd request], rfl, .unanswered fd⟩
      · rename_i world _
        unfold receiveLocked
        split
        · rename_i world' _
          exact ⟨world', [.sent fd request], rfl, .unanswered fd⟩
        · rename_i world' _
          exact ⟨world', [.sent fd request], rfl, .unanswered fd⟩
        · rename_i packet world' _
          obtain ⟨events, hstate, htrace⟩ := readReply_trace codec fd request responseType
            packet s world'
          refine ⟨world', events, ?_, ?_⟩
          · rw [← hstate]
            simp [grown, Session.note]
          · simpa [grown, Session.note] using htrace

theorem Counted.draw {s : Session ω} (h : Counted s) : Counted s.draw := by
  show s.nextRequestId + 1 = BitVec.ofNat 64 (s.drawn + 1 + 1)
  rw [h, BitVec.ofNat_add (s.drawn + 1) 1]
  rfl

/-- A frame under the next id. -/
theorem Trace.adds {request : Frame} {outcome : Except String (Except Error Frame)}
    {events : List Event} (h : Trace request (responseTypeOf request.messageType) outcome events)
    {s : Session ω} (hid : request.requestId = s.nextRequestId) (world : ω) :
    Adds (once request.messageType) s (grown s.draw world events) events where
  log := rfl
  drawn := Nat.le_succ _
  counted hs := hs.draw
  numbered hs := by
    have hone : Numbered s.drawn (s.drawn + 1) [.sent 0 request] := by
      refine ⟨[s.drawn], ?_, List.pairwise_singleton _ _, by simp⟩
      simp [sentIds, sentFrames, Event.frame?, hid, show s.nextRequestId = _ from hs]
    have hnone : Numbered s.drawn (s.drawn + 1) [] := (Numbered.nil _).mono le_rfl (Nat.le_succ _)
    cases h with
    | unsent => exact hnone
    | _ => exact hone
  quota type _ := by
    cases h with
    | unsent => simp [framesOf, sentFrames]
    | _ =>
        simp only [framesOf, sentFrames, Event.frame?, List.filterMap_cons, List.filterMap_nil,
          List.filter_cons, List.filter_nil, once]
        split_ifs <;> simp_all
  answered := by
    have haccepted : ∀ (fd : Nat) (packet : List Byte) (frame : Frame),
        decode packet = some (.ok frame) → frame.requestId = request.requestId →
        (frame.messageType = responseTypeOf request.messageType ∨
          frame.messageType = .errorReply) →
        Answered [.sent fd request, .received fd packet, .accepted frame] := by
      intro fd packet frame hdecode hid htype before after response heq
      rcases before with _ | ⟨a, _ | ⟨b, _ | ⟨c, before⟩⟩⟩
      · simp at heq
      · simp at heq
      · simp only [List.cons_append, List.nil_append, List.cons.injEq, Event.accepted.injEq] at heq
        obtain ⟨rfl, rfl, rfl, -⟩ := heq
        exact ⟨request, ⟨[], fd, packet, rfl, hdecode⟩, hid, htype⟩
      · simp at heq
    cases h with
    | unsent => exact .nil
    | unanswered fd => exact .of_none (by simp)
    | refused fd packet => exact .of_none (by simp)
    | error fd packet hdecode hid htype =>
        exact haccepted fd packet _ hdecode hid (.inr htype)
    | answered fd packet hdecode hid htype => exact haccepted fd packet _ hdecode hid (.inl htype)

/-- A frame that is returned is the last one accepted. -/
theorem Trace.last {request frame : Frame} {responseType : MessageType} {events : List Event}
    (h : Trace request responseType (.ok (.ok frame)) events) :
    frame.messageType = responseType ∧ ∃ before, events = before ++ [.accepted frame] := by
  cases h with
  | error fd packet _ _ _ hfailed => exact absurd rfl (hfailed frame)
  | answered fd packet hdecode hid htype =>
      exact ⟨htype, [.sent fd request, .received fd packet], rfl⟩

/-- What a part of a call adds, and that the frame it returns is the last one it accepted. -/
def Performs (quota : MessageType → Nat) (responseType : MessageType) (s : Session ω)
    (result : Except String (Except Error Frame) × Session ω) : Prop :=
  ∃ events, Adds quota s result.2 events ∧ ∀ frame, result.1 = .ok (.ok frame) →
    frame.messageType = responseType ∧ ∃ before, events = before ++ [.accepted frame]

theorem adds_closeLocked (s : Session ω) :
    ∃ events, Adds (fun _ => 0) s (closeLocked kernel s) events := by
  unfold closeLocked
  split
  · exact ⟨[], .refl s⟩
  · rename_i fd _
    have hclosed : ∀ response, Event.closed fd ≠ .accepted response := by simp
    have hmoved : Adds (fun _ => 0) s
        { s with socketFd := none, world := kernel.close fd s.world } [] := .of_silent rfl rfl rfl
    exact ⟨_, hmoved.trans (.note _ rfl hclosed)⟩

theorem performs_sendLocked (requestType : MessageType) (payload : List Byte) (s : Session ω) :
    Performs (once requestType) (responseTypeOf requestType) s
      (sendLocked codec kernel requestType (responseTypeOf requestType) payload s) := by
  obtain ⟨world, events, hstate, htrace⟩ := sendAndReceive_trace codec kernel
    { messageType := requestType, requestId := s.nextRequestId
      deviceGeneration := s.deviceGeneration, payload } (responseTypeOf requestType) s.draw
  refine ⟨events, ?_, fun frame hframe => ?_⟩
  · unfold sendLocked
    rw [hstate]
    exact htrace.adds rfl world
  · unfold sendLocked at hframe
    rw [hframe] at htrace
    exact htrace.last

/-- A greeting is the only frame of a new connection. -/
theorem adds_helloLocked (s : Session ω) :
    ∃ events, Adds (fun _ => 0) s (helloLocked codec kernel s).2 events := by
  obtain ⟨world, events, hstate, htrace⟩ := sendAndReceive_trace codec kernel
    { messageType := .hello, requestId := s.nextRequestId, payload := helloPayload } .helloReply
    s.draw
  have hadds := Trace.adds (s := s) htrace rfl world
  have hsent : Adds (fun _ => 0) s (grown s.draw world events) events :=
    { hadds with quota := fun type htype =>
        (hadds.quota type htype).trans (by simp [once, htype]) }
  unfold helloLocked
  dsimp only
  rcases hresult : sendAndReceiveLocked codec kernel
    { messageType := .hello, requestId := s.nextRequestId, payload := helloPayload } .helloReply
    s.draw with ⟨what | e | frame, t⟩
  · rw [hresult] at hstate
    cases hstate
    exact ⟨events, hsent⟩
  · rw [hresult] at hstate
    cases hstate
    obtain ⟨closing, hclose⟩ := adds_closeLocked kernel (grown s.draw world events)
    exact ⟨events ++ closing, hsent.trans hclose⟩
  · rw [hresult] at hstate
    cases hstate
    have hlearned : Adds (fun _ => 0) (grown s.draw world events)
        { grown s.draw world events with deviceGeneration := frame.deviceGeneration } [] :=
      .of_silent rfl rfl rfl
    exact ⟨events ++ [], hsent.trans hlearned⟩

theorem adds_ensureConnectedLocked (s : Session ω) :
    ∃ events, Adds (fun _ => 0) s (ensureConnectedLocked codec kernel s).2 events := by
  unfold ensureConnectedLocked
  cases hfd : s.socketFd with
  | some fd => exact ⟨[], .refl s⟩
  | none =>
      dsimp only
      rcases hsocket : kernel.socket s.world with ⟨text | fd, world⟩
      · exact ⟨[], .of_silent rfl rfl rfl⟩
      dsimp only
      rcases htimeouts : kernel.setTimeouts fd world with ⟨_ | text, world'⟩
      swap
      · exact ⟨[], .of_silent rfl rfl rfl⟩
      dsimp only
      rcases hconnect : kernel.connect fd world' with ⟨_ | text, world''⟩
      swap
      · exact ⟨[], .of_silent rfl rfl rfl⟩
      have hopened : ∀ response, Event.opened fd ≠ .accepted response := by simp
      have hopen := Adds.note { s with socketFd := some fd, world := world'' } rfl hopened
      have hmoved : Adds (fun _ => 0) s { s with socketFd := some fd, world := world'' } [] :=
        .of_silent rfl rfl rfl
      obtain ⟨events, hhello⟩ := adds_helloLocked codec kernel
        ({ s with socketFd := some fd, world := world'' }.note (.opened fd))
      exact ⟨_, (hmoved.trans hopen).trans hhello⟩

/-- A read may be sent again. -/
def attempts (requestType : MessageType) : Nat := if retrySafe requestType then 2 else 1

def upTo (requestType : MessageType) (t : MessageType) : Nat :=
  if t = requestType then attempts requestType else 0

theorem performs_retryLocked (requestType : MessageType) (payload : List Byte) (error : Error)
    (s : Session ω) :
    Performs (fun t => if t = requestType ∧ retrySafe requestType = true then 1 else 0)
      (responseTypeOf requestType) s
      (retryLocked codec kernel requestType (responseTypeOf requestType) payload error s) := by
  obtain ⟨closing, hclose⟩ := adds_closeLocked kernel s
  unfold retryLocked
  cases hsafe : retrySafe requestType with
  | false => exact ⟨closing, hclose.mono (by simp), nofun⟩
  | true =>
      obtain ⟨connecting, hconnect⟩ := adds_ensureConnectedLocked codec
        kernel (closeLocked kernel s)
      simp only [if_true, and_true]
      rcases hensure : ensureConnectedLocked codec kernel (closeLocked kernel s) with ⟨what | e, t⟩
      · rw [hensure] at hconnect
        exact ⟨_, (hclose.trans hconnect).mono (by simp), nofun⟩
      · rw [hensure] at hconnect
        dsimp only
        cases hok : e.isOk with
        | false => exact ⟨_, (hclose.trans hconnect).mono (by simp), nofun⟩
        | true =>
            obtain ⟨sending, hsend, hlast⟩ := performs_sendLocked codec
              kernel requestType payload t
            have hquota : ∀ type, 0 + 0 + once requestType type ≤
                if type = requestType then 1 else 0 := fun type => by simp [once]
            have hall := ((hclose.trans hconnect).trans hsend).mono hquota
            simp only [if_true]
            rcases hsent : sendLocked codec kernel requestType (responseTypeOf requestType) payload t
              with ⟨what | e' | frame, u⟩
            · rw [hsent] at hall
              exact ⟨_, hall, nofun⟩
            · rw [hsent] at hall
              obtain ⟨closing', hclose'⟩ := adds_closeLocked kernel u
              exact ⟨_, (hall.trans hclose').mono (by simp), nofun⟩
            · rw [hsent] at hall hlast
              refine ⟨_, hall, ?_⟩
              rintro frame' ⟨⟩
              obtain ⟨htype, before, hbefore⟩ := hlast frame rfl
              exact ⟨htype, (closing ++ connecting) ++ before, by simp [hbefore]⟩

theorem Performs.learn {quota : MessageType → Nat} {responseType : MessageType} {s : Session ω}
    {result : Except String (Except Error Frame) × Session ω}
    (h : Performs quota responseType s result) :
    Performs quota responseType s (learnGeneration result) := by
  obtain ⟨events, hadds, hlast⟩ := h
  rcases result with ⟨what | e | frame, t⟩
  · exact ⟨events, hadds, hlast⟩
  · exact ⟨events, hadds, hlast⟩
  · have hlearned : Adds (fun _ => 0) t { t with deviceGeneration := frame.deviceGeneration } [] :=
      .of_silent rfl rfl rfl
    refine ⟨events ++ [], (hadds.trans hlearned).mono (by simp), ?_⟩
    rintro frame' ⟨⟩
    rw [List.append_nil]
    exact hlast frame rfl

theorem performs_exchangeLocked (requestType : MessageType) (payload : List Byte)
    (s : Session ω) : Performs (upTo requestType) (responseTypeOf requestType) s
      (exchangeLocked codec kernel requestType (responseTypeOf requestType) payload s) := by
  obtain ⟨connecting, hconnect⟩ := adds_ensureConnectedLocked codec kernel s
  unfold exchangeLocked
  rcases hensure : ensureConnectedLocked codec kernel s with ⟨what | e, t⟩
  · rw [hensure] at hconnect
    exact ⟨_, hconnect.mono (by simp), nofun⟩
  · rw [hensure] at hconnect
    dsimp only
    cases hok : e.isOk with
    | false => exact ⟨_, hconnect.mono (by simp), nofun⟩
    | true =>
        obtain ⟨sending, hsend, hlast⟩ := performs_sendLocked codec
          kernel requestType payload t
        have hquota : ∀ type, 0 + once requestType type ≤ upTo requestType type := by
          intro type
          unfold once upTo attempts
          split_ifs <;> omega
        simp only [if_true]
        rcases hsent : sendLocked codec kernel requestType (responseTypeOf requestType) payload t
          with ⟨what | e' | frame, u⟩
        · rw [hsent] at hsend
          exact ⟨_, (hconnect.trans hsend).mono hquota, nofun⟩
        · rw [hsent] at hsend
          apply Performs.learn
          obtain ⟨again, hretry, hlast'⟩ := performs_retryLocked codec
            kernel requestType payload e' u
          refine ⟨_, ((hconnect.trans hsend).trans hretry).mono ?_, fun frame hframe => ?_⟩
          · intro type
            unfold once upTo attempts
            split_ifs <;> simp_all
          · obtain ⟨htype, before, rfl⟩ := hlast' frame hframe
            exact ⟨htype, (connecting ++ sending) ++ before, by simp⟩
        · rw [hsent] at hsend hlast
          apply Performs.learn
          refine ⟨_, (hconnect.trans hsend).mono hquota, ?_⟩
          rintro frame' ⟨⟩
          obtain ⟨htype, before, rfl⟩ := hlast frame rfl
          exact ⟨htype, connecting ++ before, by simp⟩

end Client

/-! ## Calls -/

/-- The frames that a call may send beside greetings: their type, and how many. -/
def Call.allowance : Call → MessageType × Nat
  | .request (.applyConnections _ _) => (.applyConnections, 1)
  | .request .getConnections => (.getConnections, 2)
  | .request (.getInputPortState _) => (.getPortState, 2)
  | .request (.getOutputPortState _) => (.getPortState, 2)
  | .request (.reset _) => (.reset, 1)
  | .request (.injectFault _) => (.injectFault, 1)
  | .request (.clearFault _) => (.injectFault, 1)
  | .request .getDeviceInfo => (.getDeviceInfo, 2)
  | .getHealth => (.getDeviceInfo, 2)
  | .deviceGeneration => (.getDeviceInfo, 0)

/-- Where a reply comes from: the payload of the last accepted frame, a failed exchange, or an
exception of the JSON library. -/
inductive Told (exchange : Exchange) (events : List Event) : Reply → Prop
  | content {before : List Event} {frame : Frame} {reply : Reply}
      (hevents : events = before ++ [.accepted frame])
      (htype : frame.messageType = exchange.responseType)
      (hread : exchange.read frame.payload = .ok reply) : Told exchange events reply
  | failed (e : Error) (generation : BitVec 64) : Told exchange events (exchange.failed e generation)
  | thrown (what : String) : Told exchange events (.thrown what)

inductive Answers (codec : JsonCodec) (events : List Event) : Call → Answer → Prop
  | request {request : Request} {reply : Reply} : Told (exchangeOf codec request) events reply →
      Answers codec events (.request request) (.reply reply)
  | health {reply : Reply} : Told (getDeviceInfo codec) events reply →
      Answers codec events .getHealth (.health (healthOf reply))
  | generation (generation : BitVec 64) :
      Answers codec events .deviceGeneration (.generation generation)

/-- A call keeps to its allowance, and its answer is told by its own events. -/
structure Disciplined (codec : JsonCodec) (c : Call) (result : Answer × List Event) : Prop where
  frames : ∀ type, type ≠ .hello → (framesOf type result.2).length ≤
    if type = c.allowance.1 then c.allowance.2 else 0
  answer : Answers codec result.2 c result.1

section Calls

variable (codec : JsonCodec) (kernel : Kernel ω)

theorem adds_performExchange (exchange : Exchange)
    (hresponse : exchange.responseType = responseTypeOf exchange.requestType) (s : Session ω) :
    ∃ events, Adds (upTo exchange.requestType) s (performExchange codec kernel exchange s).2
        events ∧ Told exchange events (performExchange codec kernel exchange s).1 := by
  obtain ⟨events, hadds, hlast⟩ := performs_exchangeLocked codec kernel
    exchange.requestType exchange.payload s
  unfold performExchange
  rw [hresponse]
  rcases hexchange : exchangeLocked codec kernel exchange.requestType
    (responseTypeOf exchange.requestType) exchange.payload s with ⟨what | e | frame, t⟩
  · rw [hexchange] at hadds
    exact ⟨events, hadds, .thrown what⟩
  · rw [hexchange] at hadds
    exact ⟨events, hadds, .failed e t.deviceGeneration⟩
  · rw [hexchange] at hadds hlast
    dsimp only
    cases hread : exchange.read frame.payload with
    | error what => exact ⟨events, hadds, .thrown what⟩
    | ok reply =>
        obtain ⟨htype, before, hbefore⟩ := hlast frame rfl
        have hafter : Adds (fun _ => 0) t (afterReply reply t) [] := by
          cases reply with
          | resetResult result => exact .of_silent rfl rfl rfl
          | _ => exact .refl t
        refine ⟨events ++ [], (hadds.trans hafter).mono (by simp), ?_⟩
        rw [List.append_nil]
        exact .content hbefore (htype.trans hresponse.symm) hread

theorem exchangeOf_response (request : Request) : (exchangeOf codec request).responseType =
    responseTypeOf (exchangeOf codec request).requestType := by
  cases request <;> rfl

theorem upTo_exchangeOf (request : Request) (type : MessageType) :
    upTo (exchangeOf codec request).requestType type =
      if type = (Call.request request).allowance.1 then (Call.request request).allowance.2
      else 0 := by
  cases request <;> rfl

theorem adds_call (c : Call) (s : Session ω) :
    ∃ events, Adds (fun type => if type = c.allowance.1 then c.allowance.2 else 0) s
        (call codec kernel c s).2 events ∧ Answers codec events c (call codec kernel c s).1 := by
  cases c with
  | request request =>
      obtain ⟨events, hadds, htold⟩ := adds_performExchange codec kernel
        (exchangeOf codec request) (exchangeOf_response codec request) s
      exact ⟨events, hadds.mono fun type => le_of_eq (upTo_exchangeOf codec request type),
        .request htold⟩
  | getHealth =>
      obtain ⟨events, hadds, htold⟩ := adds_performExchange codec kernel
        (getDeviceInfo codec) rfl s
      exact ⟨events, hadds, .health htold⟩
  | deviceGeneration =>
      refine ⟨[], (Adds.refl s).mono ?_, .generation s.deviceGeneration⟩
      exact fun type => Nat.zero_le _

/-- What a session adds to the log, whatever its calls. -/
structure Ran (s t : Session ω) : Prop where
  drawn : s.drawn ≤ t.drawn
  counted : Counted s → Counted t
  log : ∃ events, t.log = s.log ++ events ∧ Answered events ∧
    (Counted s → Numbered s.drawn t.drawn events)

theorem ran_run (calls : List Call) (s : Session ω) :
    Ran s (run codec kernel calls s).2 ∧
      List.Forall₂ (Disciplined codec) calls (run codec kernel calls s).1 := by
  induction calls generalizing s with
  | nil => exact ⟨⟨le_rfl, id, [], by simp [run], .nil, fun _ => .nil _⟩, .nil⟩
  | cons c calls ih =>
      obtain ⟨events, hadds, hanswer⟩ := adds_call codec kernel c s
      obtain ⟨⟨hdrawn, hcounted, later, hlog, hanswered, hnumbered⟩, hall⟩ :=
        ih (call codec kernel c s).2
      have hdrop : (call codec kernel c s).2.log.drop s.log.length = events := by
        rw [hadds.log, List.drop_left]
      constructor
      · refine ⟨hadds.drawn.trans hdrawn, fun hs => hcounted (hadds.counted hs), events ++ later,
          ?_, hadds.answered.append hanswered, fun hs => ?_⟩
        · rw [run, hlog, hadds.log, List.append_assoc]
        · exact (hadds.numbered hs).append (hnumbered (hadds.counted hs)) hadds.drawn hdrawn
      · rw [run]
        refine .cons ⟨?_, ?_⟩ hall
        · rw [hdrop]
          exact hadds.quota
        · rw [hdrop]
          exact hanswer

end Calls

theorem filter_eq_singleton {α β : Type} [DecidableEq β] {f : α → β} {xs : List α}
    (hnodup : (xs.map f).Nodup) {x : α} (hx : x ∈ xs) : (xs.filter fun y => f y = f x) = [x] := by
  induction xs with
  | nil => cases hx
  | cons y xs ih =>
      obtain ⟨hfresh, hnodup⟩ := List.nodup_cons.mp hnodup
      rcases List.mem_cons.mp hx with rfl | hx
      · have hrest : (xs.filter fun y => f y = f x) = [] := by
          rw [List.filter_eq_nil_iff]
          intro y hy
          simpa using fun heq : f y = f x => hfresh (heq ▸ List.mem_map_of_mem hy)
        simp [hrest]
      · have hne : f y ≠ f x := fun heq => hfresh (heq ▸ List.mem_map_of_mem hx)
        simp [hne, ih hnodup hx]

/-- A kernel that delivers what it is told, on one descriptor. -/
def scripted : Kernel (List Received) where
  socket script := (.ok 3, script)
  setTimeouts _ script := (none, script)
  connect _ script := (none, script)
  send _ _ script := (none, script)
  recv _ script := (script.headD (.failed true "Resource temporarily unavailable"), script.tail)
  close _ script := script

def packetOf (frame : Frame) : Received :=
  match encode frame with
  | .ok bytes => .packet bytes
  | .error _ => .disconnected false

/-- The first reply comes after the timeout, on the next connection. -/
def lateScript : List Received :=
  [packetOf { messageType := .helloReply, requestId := 1 },
    .failed true "Resource temporarily unavailable",
    packetOf { messageType := .helloReply, requestId := 3 },
    packetOf { messageType := .connectionsReply, requestId := 2, payload := [0x5B, 0x5D] },
    packetOf { messageType := .helloReply, requestId := 5 },
    packetOf { messageType := .connectionsReply, requestId := 6, payload := [0x5B, 0x5D] }]

def lateCalls : List Call := [.request .getConnections, .request .getConnections]

end MiniOcs.Uds.AnyLink
