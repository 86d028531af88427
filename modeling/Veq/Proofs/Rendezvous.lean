import Veq.Rendezvous
import Veq.Proofs.RoundTrip
import Veq.Proofs.Traffic

/-! Two sockets that connect to each other find each other. Whatever the network
has lost, repeated or reordered, the handshake is never stuck: a few datagrams
that arrive complete it. -/

namespace Veq
open Rust Bincode Machines

variable {H S : Type}

theorem SessionPacket.deserialize_encode_id {packet other : SessionPacket}
    (decoded : codec.deserialize (codec.encode packet) = some other) : other.id = packet.id := by
  simp only [codec, Codec.deserialize, Codec.isomorphic, Codec.refine, Codec.pair,
    Uuid.codec.decode_encode _ _ (Uuid.fits _), Option.bind_eq_bind, Option.bind_some, Option.map_bind,
    Option.bind_eq_some_iff] at decoded
  obtain ⟨fields, ⟨data, -, same⟩, built⟩ := decoded
  cases same
  cases built
  rfl

theorem Access.other_datagram {packet : SessionPacket} {id : SessionId} (different : packet.id ≠ id) (src : SocketAddr)
    (ephemeral : Nat) :
    Access.concerns id (.operate (.handleIncoming src (SessionPacket.codec.encode packet) ephemeral)) = false := by
  rw [Access.concerns, Access.id?]
  cases decoded : SessionPacket.codec.deserialize (SessionPacket.codec.encode packet) with
  | none => rfl
  | some other => simpa [SessionPacket.deserialize_encode_id decoded] using different

namespace RawMessage

theorem fits_poke : codec.Fits .handshakePoke := ⟨Codec.fits_u32.mpr (by decide : 0 < 2 ^ 32), _, rfl, (), rfl, trivial⟩

theorem fits_initiation {data : Bytes} (bounded : data.length ≤ 65535) : codec.Fits (.handshakeInitiation data) :=
  ⟨Codec.fits_u32.mpr (by decide : 1 < 2 ^ 32), _, rfl, data, rfl, Nat.lt_of_le_of_lt bounded (by decide)⟩

theorem fits_response {data : Bytes} (bounded : data.length ≤ 65535) : codec.Fits (.handshakeResponse data) :=
  ⟨Codec.fits_u32.mpr (by decide : 2 < 2 ^ 32), _, rfl, data, rfl, Nat.lt_of_le_of_lt bounded (by decide)⟩

theorem length_encode_initiation (data : Bytes) :
    (codec.encode (.handshakeInitiation data)).length = data.length + 12 := by
  simp only [codec, Codec.tagged, tag, variants, Codec.variant, Codec.bytes, Codec.uint, Option.map_some,
    Option.getD_some, List.length_append, length_leBytes]
  omega

theorem length_encode_response (data : Bytes) : (codec.encode (.handshakeResponse data)).length = data.length + 12 := by
  simp only [codec, Codec.tagged, tag, variants, Codec.variant, Codec.bytes, Codec.uint, Option.map_some,
    Option.getD_some, List.length_append, length_leBytes]
  omega

end RawMessage

theorem SessionPacket.variant_of (packet : SessionPacket) {message : RawMessage}
    (carried : packet.data = RawMessage.codec.encode message) : packet.variant = some message.tag := by
  have same : packet = ⟨packet.id, RawMessage.codec.encode message⟩ := by rw [← carried]
  rw [same]
  exact variant_encode packet.id message

theorem SessionPacket.nonce?_some {packet : SessionPacket} {nonce : Nat} (carried : packet.nonce? = some nonce) :
    ∃ data, RawMessage.codec.deserialize packet.data = some (.encrypted data) ∧
      (Nonced.codec.deserialize data).map Nonced.nonce = some nonce ∧ packet.initiation = none ∧ packet.response = none ∧
      packet.encrypted = some data := by
  unfold nonce? encrypted at carried
  split at carried
  next data decoded => exact ⟨data, decoded, carried, by simp [initiation, decoded], by simp [response, decoded],
    by simp [encrypted, decoded]⟩
  · cases carried

/-- A ciphertext adds at most its own nonce to the window. -/
theorem afterPacket_received {packet : SessionPacket} {nonce : Nat} (carried : packet.nonce? = some nonce)
    (cipher : Cipher S) (transport : LossyTransportState S) :
    ∀ other ∈ (afterPacket cipher transport packet).receivedNonces, other ∈ transport.receivedNonces ∨ other = nonce := by
  obtain ⟨data, -, numbered, -, -, found⟩ := SessionPacket.nonce?_some carried
  obtain ⟨nonced, parsed, rfl⟩ := Option.map_eq_some_iff.mp numbered
  intro other member
  simp only [afterPacket, found, LossyTransportState.readMessage, parsed] at member
  split at member
  · exact .inl member
  · have inside : other ∈ Window.enter transport.size transport.receivedNonces nonced.nonce := by
      split at member
      · exact member
      · exact member
    rcases Finset.mem_insert.mp (Window.trim_subset _ _ inside) with same | earlier
    · exact .inr same
    · exact .inl earlier

namespace Handler

variable {snow : Snow H S} {keypair : SnowKeypair} {history : List Access} {last : Access} {outgoing : Outgoing}

theorem outgoing_id (emitted : outgoing ∈
    ((after (Handler.access snow) (Handler.new keypair) history).access snow last).2.outgoing) :
    last.id? = some outgoing.2.1.id := by
  cases about : last.id? with
  | none =>
    rw [access_silent snow _ about] at emitted
    cases emitted
  | some id =>
    obtain ⟨slot, holds, formed, -⟩ := run_formed snow keypair id history
    rw [(access_concerned snow (by simp [Access.concerns, about]) holds).2] at emitted
    rw [(formed.outgoing emitted).2.1]

end Handler

/-- Noise, when nobody interferes: the responder accepts the initiation that was
made for it, the initiator accepts the response to it, and the two ends then read
each other. -/
def Snow.Completes (snow : Snow H S) (initiator responder : SnowKeypair) : Prop :=
  ∀ opened ephemeral state initiation,
    snow.buildInitiator initiator responder.publicKey = some opened →
    snow.writeHandshake opened ephemeral = some (state, initiation) →
    initiation.length ≤ 65535 ∧
      ∀ awaiting reply, snow.buildResponder responder initiator.publicKey = some awaiting →
        ∃ heard answered response confirmed left right,
          snow.readHandshake awaiting initiation = (heard, true) ∧
          snow.writeHandshake heard reply = some (answered, response) ∧ response.length ≤ 65535 ∧
          snow.intoStatelessTransportMode answered = some right ∧
          snow.readHandshake state response = (confirmed, true) ∧
          snow.intoStatelessTransportMode confirmed = some left ∧
          snow.toCipher.Seals left right ∧ snow.toCipher.Seals right left

theorem Slot.access_datagram (snow : Snow H S) (keypair : SnowKeypair) (id : SessionId) (slot : Slot H S) {src : SocketAddr}
    {data : Bytes} {packet : SessionPacket} {ephemeral : Nat} (decoded : SessionPacket.codec.deserialize data = some packet) :
    (slot.access snow keypair id (.operate (.handleIncoming src data ephemeral))).1 =
        slot.receive snow src packet ephemeral ∧
      (slot.access snow keypair id (.operate (.handleIncoming src data ephemeral))).2.outgoing = [] := by
  simp only [Slot.access, decoded, Output.outgoing, and_self]

namespace Rendezvous

variable (snow : Snow H S) (peers : Peers)

def Opened (initiator : SnowInitiator H) : Prop :=
  ∃ ephemeral, SnowInitiator.new snow (peers.keypairs .first) (peers.keypairs .second).publicKey ephemeral = some initiator

def Answered (initiator : SnowInitiator H) (answer : S × Bytes) : Prop :=
  ∃ responder ephemeral,
    SnowResponder.new snow (peers.keypairs .second) (peers.keypairs .first).publicKey = some responder ∧
      responder.response snow initiator.initiation ephemeral = .ok (.fromStateless answer.1, answer.2)

variable {snow peers} {initiator : SnowInitiator H}

theorem Opened.brief (opened : Opened snow peers initiator)
    (completes : snow.Completes (peers.keypairs .first) (peers.keypairs .second)) :
    initiator.initiation.length ≤ 65535 := by
  obtain ⟨ephemeral, opened⟩ := opened
  obtain ⟨state, building, written⟩ := Option.bind_eq_some_iff.mp opened
  obtain ⟨⟨next, initiation⟩, wrote, made⟩ := Option.bind_eq_some_iff.mp written
  cases made
  exact (completes state ephemeral next initiation building wrote).1

theorem Opened.answers (opened : Opened snow peers initiator)
    (completes : snow.Completes (peers.keypairs .first) (peers.keypairs .second)) {responder : SnowResponder H}
    (built : SnowResponder.new snow (peers.keypairs .second) (peers.keypairs .first).publicKey = some responder)
    (reply : Nat) : ∃ right response left,
      responder.response snow initiator.initiation reply = .ok (.fromStateless right, response) ∧
      response.length ≤ 65535 ∧ initiator.receiveResponse snow response = .ok (.ok (.fromStateless left)) ∧
      snow.toCipher.Seals left right ∧ snow.toCipher.Seals right left := by
  obtain ⟨ephemeral, opened⟩ := opened
  obtain ⟨state, building, written⟩ := Option.bind_eq_some_iff.mp opened
  obtain ⟨⟨next, initiation⟩, wrote, made⟩ := Option.bind_eq_some_iff.mp written
  cases made
  obtain ⟨awaiting, waits, made⟩ := Option.bind_eq_some_iff.mp built
  cases made
  obtain ⟨heard, answered, response, confirmed, left, right, read, wrote, brief, into, accepted, mirror, seals⟩ :=
    (completes state ephemeral next initiation building wrote).2 awaiting reply waits
  refine ⟨right, response, left, ?_, brief, ?_, seals⟩
  · simp only [SnowResponder.response, read, wrote, into]
  · simp only [SnowInitiator.receiveResponse, accepted, mirror]

theorem Answered.accepted (opened : Opened snow peers initiator)
    (completes : snow.Completes (peers.keypairs .first) (peers.keypairs .second)) {answer : S × Bytes}
    (answered : Answered snow peers initiator answer) : answer.2.length ≤ 65535 ∧ ∃ left,
      initiator.receiveResponse snow answer.2 = .ok (.ok (.fromStateless left)) ∧
      snow.toCipher.Seals left answer.1 ∧ snow.toCipher.Seals answer.1 left := by
  obtain ⟨responder, ephemeral, built, responded⟩ := answered
  obtain ⟨right, response, left, made, brief, accepted, seals⟩ := opened.answers completes built ephemeral
  rw [made] at responded
  cases responded
  exact ⟨brief, left, accepted, seals⟩

/-- The slots of the two hosts under the id, and where their handlers come from. -/
structure Shows (snow : Snow H S) (peers : Peers) (state : Rendezvous H S) (slots : Host → Slot H S) : Prop where
  holds : ∀ host, Handler.Holds (peers.keypairs host) peers.id (state.handlers host) (slots host)
  reached : ∀ host, ∃ history,
    state.handlers host = after (Handler.access snow) (Handler.new (peers.keypairs host)) history

namespace Shows

variable {state : Rendezvous H S} {slots : Host → Slot H S} {host : Host} {access : Access}

theorem start (snow : Snow H S) (peers : Peers) : Shows snow peers (Rendezvous.start peers) fun _ => .vacant :=
  ⟨fun host => .new (peers.keypairs host) peers.id, fun _ => ⟨[], rfl⟩⟩

theorem update (shows : Shows snow peers state slots) {slot : Slot H S}
    (holds : Handler.Holds (peers.keypairs host) peers.id ((state.handlers host).access snow access).1 slot) :
    Shows snow peers (state.perform snow host access) (Function.update slots host slot) := by
  refine ⟨?_, ?_⟩
  · intro other
    by_cases same : other = host
    · subst same
      simpa [Rendezvous.perform] using holds
    · simpa [Rendezvous.perform, same] using shows.holds other
  · intro other
    by_cases same : other = host
    · subst same
      obtain ⟨history, reached⟩ := shows.reached other
      refine ⟨history ++ [access], ?_⟩
      rw [after_concat, ← reached]
      simp [Rendezvous.perform]
    · simpa [Rendezvous.perform, same] using shows.reached other

theorem concerned (shows : Shows snow peers state slots) (host : Host) (about : access.concerns peers.id = true) :
    Shows snow peers (state.perform snow host access)
        (Function.update slots host ((slots host).access snow (peers.keypairs host) peers.id access).1) ∧
      (state.perform snow host access).sent = state.sent ++
        ((slots host).access snow (peers.keypairs host) peers.id access).2.outgoing.map
          fun outgoing => ⟨host, outgoing.1, outgoing.2.1⟩ := by
  obtain ⟨next, answer⟩ := Handler.access_concerned snow about (shows.holds host)
  refine ⟨shows.update next, ?_⟩
  rw [← answer]
  rfl

theorem unconcerned (shows : Shows snow peers state slots) (host : Host) (apart : access.concerns peers.id = false) :
    Shows snow peers (state.perform snow host access) slots ∧
      ∃ others, (state.perform snow host access).sent = state.sent ++ others ∧
        ∀ datagram ∈ others, datagram.packet.id ≠ peers.id := by
  have next := shows.update (Handler.access_unconcerned snow apart (shows.holds host))
  rw [Function.update_eq_self] at next
  refine ⟨next, ((state.handlers host).access snow access).2.outgoing.map
    fun outgoing => ⟨host, outgoing.1, outgoing.2.1⟩, rfl, ?_⟩
  intro datagram member
  obtain ⟨outgoing, emitted, rfl⟩ := List.mem_map.mp member
  obtain ⟨history, reached⟩ := shows.reached host
  rw [reached] at emitted
  have about := Handler.outgoing_id emitted
  intro same
  rw [Access.concerns, about, same] at apart
  simp at apart

end Shows
/-- A nonce that the session in a slot has used, or that a session that is gone
may have used. -/
def Spent (slot : Slot H S) (nonce : Nat) : Prop :=
  match slot with
  | .established session _ => nonce < session.transport.nextNonce
  | .vacant => True
  | _ => False

/-- The first host, which initiates. -/
def Initiates (snow : Snow H S) (peers : Peers) (initiator : Option (SnowInitiator H)) (answer : Option (S × Bytes)) :
    Slot H S → Prop
  | .vacant => True
  | .initiating pending _ =>
    ∃ current, initiator = some current ∧ pending = .new peers.id (peers.info .second) current
  | .established session _ =>
    session.id = peers.id ∧ (∃ destination, peers.route .second destination = some session.remoteAddr) ∧
      ∃ current given, initiator = some current ∧ answer = some given ∧
        current.receiveResponse snow given.2 = .ok (.ok (.fromStateless session.transport.stateless))
  | _ => False

/-- The second host, which answers the slot of the first one. -/
def Responds (snow : Snow H S) (peers : Peers) (answer : Option (S × Bytes)) (first : Slot H S) : Slot H S → Prop
  | .vacant => True
  | .poking pending _ =>
    answer = none ∧ ∃ responder, pending = .new peers.id (peers.info .first) responder ∧
      SnowResponder.new snow (peers.keypairs .second) (peers.keypairs .first).publicKey = some responder
  | .responding pending _ =>
    (pending.id = peers.id ∧ pending.ready = false ∧
        ∃ destination, peers.route .first destination = some pending.remoteAddr) ∧
      (∃ given, answer = some given ∧ pending.transport.stateless = given.1 ∧
        pending.handle = .spawn peers.id [pending.remoteAddr] (.handshakeResponse given.2)) ∧
      ∀ nonce ∈ pending.transport.receivedNonces, Spent first nonce
  | .established session _ =>
    session.id = peers.id ∧ (∃ given, answer = some given ∧ session.transport.stateless = given.1) ∧ ∃ nonce, Spent first nonce
  | .initiating _ _ => False

/-- The packets of the first host: its initiation, and ciphertexts once its session
is established. -/
def FromFirst (initiator : Option (SnowInitiator H)) (first : Slot H S) (packet : SessionPacket) : Prop :=
  (∃ current, initiator = some current ∧ packet.data = RawMessage.codec.encode (.handshakeInitiation current.initiation)) ∨
    (∃ nonce, packet.nonce? = some nonce ∧ Spent first nonce) ∧ packet.data.length < 2 ^ 64

/-- The packets of the second host: pokes, its response, and ciphertexts. -/
def FromSecond (answer : Option (S × Bytes)) (packet : SessionPacket) : Prop :=
  packet.data = RawMessage.codec.encode .handshakePoke ∨
    (∃ given, answer = some given ∧ packet.data = RawMessage.codec.encode (.handshakeResponse given.2)) ∨
    packet.nonce?.isSome ∧ packet.data.length < 2 ^ 64

/-- The two ends of the session and the datagrams between them, once `initiator`
and `answer` are known. -/
structure Sound (snow : Snow H S) (peers : Peers) (slots : Host → Slot H S) (sent : List Datagram) (joined : List Host)
    (initiator : Option (SnowInitiator H)) (answer : Option (S × Bytes)) : Prop where
  opened : ∀ current, initiator = some current → Opened snow peers current
  answered : ∀ given, answer = some given → ∃ current, initiator = some current ∧ Answered snow peers current given
  absent : .first ∉ joined → slots .first = .vacant ∧ initiator = none ∧
    ∀ datagram ∈ sent, datagram.sender = .first → datagram.packet.id ≠ peers.id
  waiting : .second ∉ joined → slots .second = .vacant ∧ answer = none
  first : Initiates snow peers initiator answer (slots .first)
  second : Responds snow peers answer (slots .first) (slots .second)
  fromFirst : ∀ datagram ∈ sent, datagram.sender = .first → datagram.packet.id = peers.id →
    FromFirst initiator (slots .first) datagram.packet
  fromSecond : ∀ datagram ∈ sent, datagram.sender = .second → datagram.packet.id = peers.id →
    FromSecond answer datagram.packet

section

variable {answer : Option (S × Bytes)} {opening : Option (SnowInitiator H)} {slot first : Slot H S}
  {packet : SessionPacket} {src : SocketAddr}

theorem Spent.continues {session next : Session S} {oneTimeId : OneTimeId} {nonce : Nat}
    (spent : Spent (.established session oneTimeId : Slot H S) nonce) (same : session.Continues next) :
    Spent (.established next oneTimeId : Slot H S) nonce :=
  Nat.lt_of_lt_of_le spent same.nextNonce

theorem Initiates.continues {session next : Session S} {oneTimeId : OneTimeId}
    (initiates : Initiates snow peers opening answer (.established session oneTimeId)) (same : session.Continues next) :
    Initiates snow peers opening answer (.established next oneTimeId) := by
  obtain ⟨named, ⟨destination, routed⟩, current, given, opened, answered, accepted⟩ := initiates
  refine ⟨same.id.trans named, ⟨destination, ?_⟩, current, given, opened, answered, ?_⟩
  · rw [same.remoteAddr, routed]
  · rw [same.stateless, accepted]

/-- What a datagram of the second host does to the slot of the first one. -/
inductive Hears (cipher : Cipher S) (packet : SessionPacket) : Slot H S → Slot H S → Prop
  | passes (slot : Slot H S) (other : slot = .vacant ∨ packet.variant ≠ some 2) : Hears cipher packet slot slot
  | opens (pending : PendingSessionInitiator H) (id : SessionId) (src : SocketAddr) (stateless : S) (oneTimeId : OneTimeId) :
      Hears cipher packet (.initiating pending oneTimeId) (.established (.new id src (.fromStateless stateless)) oneTimeId)
  | reads (session : Session S) (oneTimeId : OneTimeId) : Hears cipher packet (.established session oneTimeId)
      (.established (session.handleIncoming cipher packet).1 oneTimeId)

theorem Hears.spent {cipher : Cipher S} {next : Slot H S} (hears : Hears cipher packet slot next) {nonce : Nat}
    (spent : Spent slot nonce) : Spent next nonce := by
  cases hears with
  | passes => exact spent
  | opens => cases spent
  | reads session oneTimeId => exact spent.continues (session.handleIncoming_continues cipher packet)

/-- The initiator accepts the response and passes over everything else. -/
theorem Initiates.receive (completes : snow.Completes (peers.keypairs .first) (peers.keypairs .second))
    (opened : ∀ current, opening = some current → Opened snow peers current)
    (answered : ∀ given, answer = some given → ∃ current, opening = some current ∧ Answered snow peers current given)
    (initiates : Initiates snow peers opening answer slot) (sent : FromSecond answer packet)
    (routed : ∃ destination, peers.route .second destination = some src) (ephemeral : Nat) :
    Initiates snow peers opening answer (slot.receive snow src packet ephemeral) ∧
      Hears snow.toCipher packet slot (slot.receive snow src packet ephemeral) := by
  cases slot with
  | vacant => exact ⟨trivial, .passes _ (.inl rfl)⟩
  | poking | responding => cases initiates
  | established session oneTimeId =>
    exact ⟨initiates.continues (session.handleIncoming_continues snow.toCipher packet), .reads session oneTimeId⟩
  | initiating pending oneTimeId =>
    obtain ⟨current, begun, rfl⟩ := initiates
    have passes : packet.response = none → packet.variant ≠ some 2 →
        Initiates snow peers opening answer (Slot.receive snow src packet ephemeral
          (.initiating (.new peers.id (peers.info .second) current) oneTimeId)) ∧
        Hears snow.toCipher packet (.initiating (.new peers.id (peers.info .second) current) oneTimeId)
          (Slot.receive snow src packet ephemeral (.initiating (.new peers.id (peers.info .second) current) oneTimeId)) := by
      intro other variant
      rw [Slot.receive, PendingSessionInitiator.advance_other snow rfl other]
      exact ⟨⟨current, begun, rfl⟩, .passes _ (.inr variant)⟩
    rcases sent with poke | ⟨given, made, carried⟩ | ⟨ciphertext, -⟩
    · apply passes
      · simp [SessionPacket.response, poke, RawMessage.codec.deserialize_encode RawMessage.fits_poke]
      · rw [packet.variant_of poke]
        decide
    · obtain ⟨other, same, responded⟩ := answered given made
      cases begun.symm.trans same
      obtain ⟨brief, left, accepted, -⟩ := responded.accepted (opened current begun) completes
      have found : packet.response = some given.2 := by
        simp [SessionPacket.response, carried, RawMessage.codec.deserialize_encode (RawMessage.fits_response brief)]
      rw [Slot.receive, PendingSessionInitiator.advance_response snow found]
      simp only [PendingSessionInitiator.new, accepted]
      exact ⟨⟨rfl, routed, current, given, begun, made, accepted⟩, .opens _ _ _ _ _⟩
    · obtain ⟨nonce, carried⟩ := Option.isSome_iff_exists.mp ciphertext
      obtain ⟨data, -, -, -, other, -⟩ := SessionPacket.nonce?_some carried
      apply passes other
      rw [SessionPacket.nonce?_variant carried]
      decide

theorem Responds.continues {session next : Session S} {oneTimeId : OneTimeId}
    (responds : Responds snow peers answer first (.established session oneTimeId)) (same : session.Continues next) :
    Responds snow peers answer first (.established next oneTimeId) := by
  obtain ⟨named, ⟨given, made, stateless⟩, spent⟩ := responds
  exact ⟨same.id.trans named, ⟨given, made, same.stateless.trans stateless⟩, spent⟩

/-- What the first host does later does not disturb the second one. -/
theorem Responds.imp {next : Slot H S} (responds : Responds snow peers answer first slot)
    (later : ∀ nonce, Spent first nonce → Spent next nonce) : Responds snow peers answer next slot := by
  cases slot with
  | vacant => trivial
  | initiating => cases responds
  | poking pending oneTimeId => exact responds
  | responding pending oneTimeId =>
    obtain ⟨same, given, received⟩ := responds
    exact ⟨same, given, fun nonce member => later nonce (received nonce member)⟩
  | established session oneTimeId =>
    obtain ⟨same, given, nonce, spent⟩ := responds
    exact ⟨same, given, nonce, later nonce spent⟩

/-- What a datagram of the first host does to the slot of the second one. -/
inductive Heeds (cipher : Cipher S) (packet : SessionPacket) : Slot H S → Slot H S → Prop
  | passes (slot : Slot H S) (other : slot = .vacant ∨ packet.variant ≠ some 1) : Heeds cipher packet slot slot
  | responds (pending : PendingSessionPoker H) (next : PendingSessionResponder S) (oneTimeId : OneTimeId) :
      Heeds cipher packet (.poking pending oneTimeId) (.responding next oneTimeId)
  | waits (pending next : PendingSessionResponder S) (oneTimeId : OneTimeId) :
      Heeds cipher packet (.responding pending oneTimeId) (.responding next oneTimeId)
  | confirms (pending : PendingSessionResponder S) (session : Session S) (oneTimeId : OneTimeId) :
      Heeds cipher packet (.responding pending oneTimeId) (.established session oneTimeId)
  | reads (session : Session S) (oneTimeId : OneTimeId) : Heeds cipher packet (.established session oneTimeId)
      (.established (session.handleIncoming cipher packet).1 oneTimeId)

theorem Responds.receive (completes : snow.Completes (peers.keypairs .first) (peers.keypairs .second))
    (opened : ∀ current, opening = some current → Opened snow peers current)
    (answered : ∀ given, answer = some given → ∃ current, opening = some current ∧ Answered snow peers current given)
    (responds : Responds snow peers answer first slot) (sent : FromFirst opening first packet)
    (routed : ∃ destination, peers.route .first destination = some src) (ephemeral : Nat) :
    Heeds snow.toCipher packet slot (slot.receive snow src packet ephemeral) ∧
      ∃ next, (answer = none ∨ next = answer) ∧
        (∀ given, next = some given → ∃ current, opening = some current ∧ Answered snow peers current given) ∧
        Responds snow peers next first (slot.receive snow src packet ephemeral) := by
  cases slot with
  | vacant => exact ⟨.passes _ (.inl rfl), answer, .inr rfl, answered, trivial⟩
  | initiating => cases responds
  | established session oneTimeId =>
    exact ⟨.reads session oneTimeId, answer, .inr rfl, answered,
      responds.continues (session.handleIncoming_continues snow.toCipher packet)⟩
  | poking pending oneTimeId =>
    obtain ⟨unanswered, responder, rfl, built⟩ := responds
    rcases sent with ⟨current, begun, carried⟩ | ⟨⟨nonce, carried, -⟩, -⟩
    · have short := (opened current begun).brief completes
      obtain ⟨right, response, left, made, -⟩ := (opened current begun).answers completes built ephemeral
      have found : packet.initiation = some current.initiation := by
        simp [SessionPacket.initiation, carried, RawMessage.codec.deserialize_encode (RawMessage.fits_initiation short)]
      rw [Slot.receive, PendingSessionPoker.advance_initiation snow found]
      simp only [PendingSessionPoker.new, made]
      refine ⟨.responds _ _ _, some (right, response), .inl unanswered, ?_, ?_⟩
      · rintro given ⟨⟩
        exact ⟨current, begun, responder, ephemeral, built, made⟩
      · exact ⟨⟨rfl, rfl, routed⟩, ⟨_, rfl, rfl, rfl⟩, fun nonce member => by cases member⟩
    · obtain ⟨data, -, -, other, -, -⟩ := SessionPacket.nonce?_some carried
      rw [Slot.receive, PendingSessionPoker.advance_other snow rfl other]
      refine ⟨.passes _ (.inr ?_), answer, .inr rfl, answered, unanswered, responder, rfl, built⟩
      rw [SessionPacket.nonce?_variant carried]
      decide
  | responding pending oneTimeId =>
    obtain ⟨⟨named, unready, address⟩, ⟨given, made, stateless, handle⟩, received⟩ := responds
    rw [Slot.receive, PendingSessionResponder.advance]
    rcases sent with ⟨current, begun, carried⟩ | ⟨⟨nonce, carried, spent⟩, -⟩
    · have short := (opened current begun).brief completes
      have decoded : RawMessage.codec.deserialize packet.data = some (.handshakeInitiation current.initiation) := by
        rw [carried, RawMessage.codec.deserialize_encode (RawMessage.fits_initiation short)]
      simp only [PendingSessionResponder.handleIncoming, decoded, PendingSessionResponder.isReady, unready]
      exact ⟨.waits _ _ _, answer, .inr rfl, answered, ⟨named, unready, address⟩, ⟨given, made, stateless, handle⟩, received⟩
    · have window := afterPacket_received carried snow.toCipher pending.transport
      have same : (afterPacket snow.toCipher pending.transport packet).stateless = _ :=
        afterPacket_stateless pending.transport packet
      rcases pending.handleIncoming_cases snow.toCipher packet with ⟨-, handled⟩ | ⟨-, handled, -⟩
      · rw [handled]
        exact ⟨.confirms _ _ _, answer, .inr rfl, answered, named, ⟨given, made, same.trans stateless⟩, nonce, spent⟩
      · rw [handled]
        simp only [PendingSessionResponder.isReady, unready]
        refine ⟨.waits _ _ _, answer, .inr rfl, answered, ⟨named, rfl, address⟩,
          ⟨given, made, same.trans stateless, handle⟩, ?_⟩
        intro other member
        rcases window other member with earlier | rfl
        · exact received other earlier
        · exact spent

end

theorem Initiates.idle {answer : Option (S × Bytes)} {opening : Option (SnowInitiator H)} {slot : Slot H S}
    (initiates : Initiates snow peers opening answer slot) : slot.Idle := by
  cases slot with
  | initiating pending oneTimeId =>
    obtain ⟨current, -, rfl⟩ := initiates
    rfl
  | poking => cases initiates
  | _ => trivial

theorem Responds.idle {answer : Option (S × Bytes)} {slot first : Slot H S}
    (responds : Responds snow peers answer first slot) : slot.Idle := by
  cases slot with
  | poking pending oneTimeId =>
    obtain ⟨-, responder, rfl, -⟩ := responds
    rfl
  | initiating => cases responds
  | _ => trivial

theorem Initiates.retransmitted {answer : Option (S × Bytes)} {opening : Option (SnowInitiator H)} {slot : Slot H S}
    (initiates : Initiates snow peers opening answer slot) {outgoing : Outgoing}
    (member : outgoing ∈ slot.retransmissions) : FromFirst opening slot outgoing.2.1 := by
  cases slot with
  | vacant | established => cases member
  | poking | responding => cases initiates
  | initiating pending oneTimeId =>
    obtain ⟨current, begun, rfl⟩ := initiates
    obtain ⟨address, -, rfl⟩ := List.mem_map.mp (JoinHandle.mem_tick member)
    exact .inl ⟨current, begun, rfl⟩

theorem Responds.retransmitted {answer : Option (S × Bytes)} {slot first : Slot H S}
    (responds : Responds snow peers answer first slot) {outgoing : Outgoing} (member : outgoing ∈ slot.retransmissions) :
    FromSecond answer outgoing.2.1 := by
  cases slot with
  | vacant | established => cases member
  | initiating => cases responds
  | poking pending oneTimeId =>
    obtain ⟨-, responder, rfl, -⟩ := responds
    obtain ⟨address, -, rfl⟩ := List.mem_map.mp (JoinHandle.mem_tick member)
    exact .inl rfl
  | responding pending oneTimeId =>
    obtain ⟨-, ⟨given, made, -, handle⟩, -⟩ := responds
    have sent := JoinHandle.mem_tick member
    rw [handle] at sent
    obtain ⟨address, -, rfl⟩ := List.mem_map.mp sent
    exact .inr (.inl ⟨given, made, rfl⟩)

theorem short_encrypted {data : Bytes} (short : data.length ≤ 65535) :
    (RawMessage.codec.encode (.encrypted data)).length < 2 ^ 64 := by
  rw [RawMessage.length_encode_encrypted]
  omega

namespace Sound

variable {slots : Host → Slot H S} {sent new : List Datagram} {joined : List Host} {opening : Option (SnowInitiator H)}
  {answer next : Option (S × Bytes)} {slot : Slot H S}

theorem start (snow : Snow H S) (peers : Peers) : Sound snow peers (fun _ => .vacant) [] [] none none where
  opened := by simp
  answered := by simp
  absent _ := ⟨rfl, rfl, by simp⟩
  waiting _ := ⟨rfl, rfl⟩
  first := trivial
  second := trivial
  fromFirst := by simp
  fromSecond := by simp

theorem others (sound : Sound snow peers slots sent joined opening answer)
    (apart : ∀ datagram ∈ new, datagram.packet.id ≠ peers.id) : Sound snow peers slots (sent ++ new) joined opening answer where
  opened := sound.opened
  answered := sound.answered
  absent unborn := by
    obtain ⟨vacant, unopened, none⟩ := sound.absent unborn
    refine ⟨vacant, unopened, ?_⟩
    intro datagram member sender
    rcases List.mem_append.mp member with earlier | now
    · exact none datagram earlier sender
    · exact apart datagram now
  waiting := sound.waiting
  first := sound.first
  second := sound.second
  fromFirst datagram member sender same := by
    rcases List.mem_append.mp member with earlier | now
    · exact sound.fromFirst datagram earlier sender same
    · exact absurd same (apart datagram now)
  fromSecond datagram member sender same := by
    rcases List.mem_append.mp member with earlier | now
    · exact sound.fromSecond datagram earlier sender same
    · exact absurd same (apart datagram now)

theorem moveFirst (sound : Sound snow peers slots sent joined opening answer)
    (absent : .first ∉ joined → slot = .vacant ∧ new = []) (initiates : Initiates snow peers opening answer slot)
    (later : ∀ nonce, Spent (slots .first) nonce → Spent slot nonce)
    (emitted : ∀ datagram ∈ new, datagram.sender = .first ∧ FromFirst opening slot datagram.packet) :
    Sound snow peers (Function.update slots .first slot) (sent ++ new) joined opening answer where
  opened := sound.opened
  answered := sound.answered
  absent unborn := by
    obtain ⟨vacant, rfl⟩ := absent unborn
    obtain ⟨-, unopened, none⟩ := sound.absent unborn
    exact ⟨by simp [vacant], unopened, by simpa using none⟩
  waiting unborn := by simpa using sound.waiting unborn
  first := by simpa using initiates
  second := by simpa using sound.second.imp later
  fromFirst datagram member sender same := by
    simp only [Function.update_self]
    rcases List.mem_append.mp member with earlier | now
    · rcases sound.fromFirst datagram earlier sender same with initiation | ⟨⟨nonce, carried, spent⟩, short⟩
      · exact .inl initiation
      · exact .inr ⟨⟨nonce, carried, later nonce spent⟩, short⟩
    · exact (emitted datagram now).2
  fromSecond datagram member sender same := by
    rcases List.mem_append.mp member with earlier | now
    · exact sound.fromSecond datagram earlier sender same
    · cases (emitted datagram now).1.symm.trans sender

theorem moveSecond (sound : Sound snow peers slots sent joined opening answer) (grows : answer = none ∨ next = answer)
    (answered : ∀ given, next = some given → ∃ current, opening = some current ∧ Answered snow peers current given)
    (waiting : .second ∉ joined → slot = .vacant ∧ next = none) (responds : Responds snow peers next (slots .first) slot)
    (emitted : ∀ datagram ∈ new, datagram.sender = .second ∧ FromSecond next datagram.packet) :
    Sound snow peers (Function.update slots .second slot) (sent ++ new) joined opening next where
  opened := sound.opened
  answered := answered
  absent unborn := by
    obtain ⟨vacant, unopened, none⟩ := sound.absent unborn
    refine ⟨by simpa using vacant, unopened, ?_⟩
    intro datagram member sender
    rcases List.mem_append.mp member with earlier | now
    · exact none datagram earlier sender
    · cases (emitted datagram now).1.symm.trans sender
  waiting unborn := by simpa using waiting unborn
  first := by
    have initiates := sound.first
    rcases grows with unanswered | rfl
    · subst unanswered
      simp only [ne_eq, reduceCtorEq, not_false_eq_true, Function.update_of_ne]
      generalize slots .first = first at initiates ⊢
      cases first with
      | established session oneTimeId =>
        obtain ⟨-, -, current, given, -, none, -⟩ := initiates
        cases none
      | _ => exact initiates
    · simpa using initiates
  second := by simpa using responds
  fromFirst datagram member sender same := by
    simp only [ne_eq, reduceCtorEq, not_false_eq_true, Function.update_of_ne]
    rcases List.mem_append.mp member with earlier | now
    · exact sound.fromFirst datagram earlier sender same
    · cases (emitted datagram now).1.symm.trans sender
  fromSecond datagram member sender same := by
    rcases List.mem_append.mp member with earlier | now
    · rcases sound.fromSecond datagram earlier sender same with poke | ⟨given, made, response⟩ | ciphertext
      · exact .inl poke
      · rcases grows with unanswered | rfl
        · cases unanswered.symm.trans made
        · exact .inr (.inl ⟨given, made, response⟩)
      · exact .inr (.inr ciphertext)
    · exact (emitted datagram now).2

theorem callFirst (sound : Sound snow peers slots sent joined opening answer) {access : Access}
    (unnamed : access.info? = none) (call : access.isDatagram = false) :
    let result := (slots .first).access snow (peers.keypairs .first) peers.id access
    Sound snow peers (Function.update slots .first result.1)
      (sent ++ result.2.outgoing.map fun outgoing => ⟨.first, outgoing.1, outgoing.2.1⟩) joined opening answer := by
  have initiates := sound.first
  dsimp only
  rcases Slot.call_cases snow (peers.keypairs .first) peers.id initiates.idle unnamed call with
    ⟨same, sends⟩ | ⟨vacant, silent⟩ | ⟨session, next, oneTimeId, current, reached, continues, sends⟩
  · rw [same]
    apply sound.moveFirst ?_ initiates (fun _ spent => spent) ?_
    · intro unborn
      have vacant := (sound.absent unborn).1
      refine ⟨vacant, List.map_eq_nil_iff.mpr (List.eq_nil_iff_forall_not_mem.mpr ?_)⟩
      intro outgoing member
      have sent := sends outgoing member
      rw [vacant] at sent
      cases sent
    · intro datagram member
      obtain ⟨outgoing, emitted, rfl⟩ := List.mem_map.mp member
      exact ⟨rfl, initiates.retransmitted (sends outgoing emitted)⟩
  · rw [vacant, silent]
    exact sound.moveFirst (fun _ => ⟨rfl, rfl⟩) trivial (fun _ _ => trivial) (by simp)
  · rw [reached]
    rw [current] at initiates
    apply sound.moveFirst ?_ (initiates.continues continues) ?_ ?_
    · intro unborn
      cases current.symm.trans (sound.absent unborn).1
    · rw [current]
      exact fun _ spent => spent.continues continues
    · intro datagram member
      obtain ⟨outgoing, emitted, rfl⟩ := List.mem_map.mp member
      obtain ⟨data, rfl, short, nonce, advanced⟩ := sends outgoing emitted
      refine ⟨rfl, .inr ⟨⟨_, nonce, ?_⟩, short_encrypted short⟩⟩
      rw [Spent, advanced]
      exact Nat.lt_succ_self _

theorem callSecond (sound : Sound snow peers slots sent joined opening answer) {access : Access}
    (unnamed : access.info? = none) (call : access.isDatagram = false) :
    let result := (slots .second).access snow (peers.keypairs .second) peers.id access
    Sound snow peers (Function.update slots .second result.1)
      (sent ++ result.2.outgoing.map fun outgoing => ⟨.second, outgoing.1, outgoing.2.1⟩) joined opening answer := by
  have responds := sound.second
  dsimp only
  rcases Slot.call_cases snow (peers.keypairs .second) peers.id responds.idle unnamed call with
    ⟨same, sends⟩ | ⟨vacant, silent⟩ | ⟨session, next, oneTimeId, current, reached, continues, sends⟩
  · rw [same]
    apply sound.moveSecond (.inr rfl) sound.answered sound.waiting responds ?_
    intro datagram member
    obtain ⟨outgoing, emitted, rfl⟩ := List.mem_map.mp member
    exact ⟨rfl, responds.retransmitted (sends outgoing emitted)⟩
  · rw [vacant, silent]
    exact sound.moveSecond (.inr rfl) sound.answered (fun unborn => ⟨rfl, (sound.waiting unborn).2⟩) trivial (by simp)
  · rw [reached]
    rw [current] at responds
    apply sound.moveSecond (.inr rfl) sound.answered ?_ (responds.continues continues) ?_
    · intro unborn
      cases current.symm.trans (sound.waiting unborn).1
    · intro datagram member
      obtain ⟨outgoing, emitted, rfl⟩ := List.mem_map.mp member
      obtain ⟨data, rfl, short, nonce, -⟩ := sends outgoing emitted
      exact ⟨rfl, .inr (.inr ⟨by rw [nonce]; rfl, short_encrypted short⟩)⟩

theorem connectFirst (sound : Sound snow peers slots sent joined opening answer)
    (order : (peers.info .first).isInitiator (peers.info .second) = true) (unborn : .first ∉ joined) (ephemeral : Nat)
    (oneTimeId : OneTimeId) :
    let result := (slots .first).access snow (peers.keypairs .first) peers.id
      ((peers.info .first).connect (peers.info .second) peers.id ephemeral oneTimeId)
    result.2.outgoing = [] ∧
      ∃ opening, Sound snow peers (Function.update slots .first result.1) sent (.first :: joined) opening answer := by
  obtain ⟨vacant, unopened, silent⟩ := sound.absent unborn
  have unanswered : answer = none := by
    cases answer with
    | none => rfl
    | some given =>
      obtain ⟨current, begun, -⟩ := sound.answered given rfl
      cases unopened.symm.trans begun
  have joins : Sound snow peers slots sent (.first :: joined) opening answer := { sound with
    absent := fun none => absurd List.mem_cons_self none
    waiting := fun none => sound.waiting fun born => none (List.mem_cons_of_mem _ born) }
  simp only [ConnectionInfo.connect, order, ↓reduceIte, Slot.access, Slot.initiate]
  cases built : SnowInitiator.new snow (peers.keypairs .first) (peers.info .second).publicKey ephemeral with
  | none =>
    refine ⟨rfl, opening, ?_⟩
    rw [← vacant, Function.update_eq_self]
    exact joins
  | some current =>
    refine ⟨rfl, some current, ?_⟩
    constructor
    · rintro other ⟨⟩
      exact ⟨ephemeral, built⟩
    · intro given made
      cases unanswered.symm.trans made
    · exact fun none => absurd List.mem_cons_self none
    · simpa using joins.waiting
    · simp only [Function.update_self]
      exact ⟨current, rfl, rfl⟩
    · have responds := sound.second
      simp only [ne_eq, reduceCtorEq, not_false_eq_true, Function.update_of_ne, Function.update_self]
      generalize slots .second = second at responds ⊢
      cases second with
      | responding pending other =>
        obtain ⟨-, ⟨given, made, -⟩, -⟩ := responds
        cases unanswered.symm.trans made
      | established session other =>
        obtain ⟨-, ⟨given, made, -⟩, -⟩ := responds
        cases unanswered.symm.trans made
      | _ => exact responds
    · intro datagram member sender same
      exact absurd same (silent datagram member sender)
    · exact sound.fromSecond

theorem connectSecond (sound : Sound snow peers slots sent joined opening answer)
    (order : (peers.info .second).isInitiator (peers.info .first) = false) (unborn : .second ∉ joined) (ephemeral : Nat)
    (oneTimeId : OneTimeId) :
    let result := (slots .second).access snow (peers.keypairs .second) peers.id
      ((peers.info .second).connect (peers.info .first) peers.id ephemeral oneTimeId)
    result.2.outgoing = [] ∧
      Sound snow peers (Function.update slots .second result.1) sent (.second :: joined) opening answer := by
  obtain ⟨vacant, unanswered⟩ := sound.waiting unborn
  have joins : Sound snow peers slots sent (.second :: joined) opening answer := { sound with
    absent := fun none => sound.absent fun born => none (List.mem_cons_of_mem _ born)
    waiting := fun none => absurd List.mem_cons_self none }
  have next : ∀ slot, Responds snow peers answer (slots .first) slot →
      Sound snow peers (Function.update slots .second slot) sent (.second :: joined) opening answer := by
    intro slot responds
    have moved : Sound snow peers (Function.update slots .second slot) (sent ++ []) (.second :: joined) opening answer :=
      joins.moveSecond (.inr rfl) sound.answered (fun none => absurd List.mem_cons_self none) responds (by simp)
    rwa [List.append_nil] at moved
  simp only [ConnectionInfo.connect, order, Bool.false_eq_true, ↓reduceIte, Slot.access, Slot.respond]
  cases built : SnowResponder.new snow (peers.keypairs .second) (peers.info .first).publicKey with
  | none => exact ⟨rfl, next .vacant trivial⟩
  | some responder => exact ⟨rfl, next _ ⟨unanswered, responder, rfl, built⟩⟩

theorem decodes (sound : Sound snow peers slots sent joined opening answer)
    (completes : snow.Completes (peers.keypairs .first) (peers.keypairs .second)) {datagram : Datagram}
    (member : datagram ∈ sent) (same : datagram.packet.id = peers.id) :
    SessionPacket.codec.deserialize (SessionPacket.codec.encode datagram.packet) = some datagram.packet := by
  have short : datagram.packet.data.length < 2 ^ 64 := by
    cases sender : datagram.sender with
    | first =>
      rcases sound.fromFirst datagram member sender same with ⟨current, begun, carried⟩ | ⟨-, short⟩
      · have := (sound.opened current begun).brief completes
        rw [carried, RawMessage.length_encode_initiation]
        omega
      · exact short
    | second =>
      rcases sound.fromSecond datagram member sender same with poke | ⟨given, made, carried⟩ | ⟨-, short⟩
      · rw [poke]
        decide
      · obtain ⟨current, begun, answered⟩ := sound.answered given made
        have := (answered.accepted (sound.opened current begun) completes).1
        rw [carried, RawMessage.length_encode_response]
        omega
      · exact short
  exact SessionPacket.codec.deserialize_encode (SessionPacket.fits short)

theorem arrives (sound : Sound snow peers slots sent joined opening answer)
    (completes : snow.Completes (peers.keypairs .first) (peers.keypairs .second)) {datagram : Datagram}
    (member : datagram ∈ sent) (same : datagram.packet.id = peers.id) {src : SocketAddr}
    (routed : peers.route datagram.sender datagram.destination = some src) (ephemeral : Nat) :
    ∃ next, Sound snow peers (Function.update slots datagram.sender.other
      ((slots datagram.sender.other).receive snow src datagram.packet ephemeral)) sent joined opening next := by
  cases sender : datagram.sender with
  | first =>
    rw [sender] at routed
    have carried := sound.fromFirst datagram member sender same
    have still : ∀ slot next, (answer = none ∨ next = answer) →
        (∀ given, next = some given → ∃ current, opening = some current ∧ Answered snow peers current given) →
        (.second ∉ joined → slot = .vacant ∧ next = none) → Responds snow peers next (slots .first) slot →
        Sound snow peers (Function.update slots .second slot) sent joined opening next := by
      intro slot next grows answered waiting responds
      have moved : Sound snow peers (Function.update slots .second slot) (sent ++ []) joined opening next :=
        sound.moveSecond grows answered waiting responds (by simp)
      rwa [List.append_nil] at moved
    by_cases born : .second ∈ joined
    · obtain ⟨-, next, grows, answered, responds⟩ :=
        sound.second.receive completes sound.opened sound.answered carried ⟨_, routed⟩ ephemeral
      exact ⟨next, still _ next grows answered (absurd born) responds⟩
    · obtain ⟨vacant, unanswered⟩ := sound.waiting born
      refine ⟨answer, still _ answer (.inr rfl) sound.answered ?_ ?_⟩
      · exact fun _ => ⟨by rw [Host.other, vacant]; rfl, unanswered⟩
      · rw [Host.other, vacant]
        trivial
  | second =>
    rw [sender] at routed
    have carried := sound.fromSecond datagram member sender same
    obtain ⟨initiates, hears⟩ :=
      sound.first.receive completes sound.opened sound.answered carried ⟨_, routed⟩ ephemeral
    refine ⟨answer, ?_⟩
    have moved : Sound snow peers (Function.update slots .first ((slots .first).receive snow src datagram.packet ephemeral))
        (sent ++ []) joined opening answer := by
      apply sound.moveFirst ?_ initiates (fun _ => hears.spent) (by simp)
      intro unborn
      rw [(sound.absent unborn).1]
      exact ⟨rfl, rfl⟩
    rwa [List.append_nil] at moved

end Sound

/-- Every reachable state. -/
def Valid (snow : Snow H S) (peers : Peers) (state : Rendezvous H S) : Prop :=
  ∃ slots opening answer, Shows snow peers state slots ∧
    Sound snow peers slots state.sent state.joined opening answer

section

variable {state next : Rendezvous H S}

theorem Valid.start (snow : Snow H S) (peers : Peers) : Valid snow peers (start peers) :=
  ⟨_, none, none, .start snow peers, .start snow peers⟩

theorem Valid.concerned {slots : Host → Slot H S} {opening : Option (SnowInitiator H)} {answer : Option (S × Bytes)}
    (shows : Shows snow peers state slots) {host : Host} {access : Access} (about : access.concerns peers.id = true)
    (sound : Sound snow peers
      (Function.update slots host ((slots host).access snow (peers.keypairs host) peers.id access).1)
      (state.sent ++ ((slots host).access snow (peers.keypairs host) peers.id access).2.outgoing.map
        fun outgoing => ⟨host, outgoing.1, outgoing.2.1⟩) state.joined opening answer) :
    Valid snow peers (state.perform snow host access) := by
  obtain ⟨shown, sent⟩ := shows.concerned host about
  refine ⟨_, opening, answer, shown, ?_⟩
  rw [sent]
  exact sound

theorem Valid.unconcerned (valid : Valid snow peers state) (host : Host) {access : Access}
    (apart : access.concerns peers.id = false) : Valid snow peers (state.perform snow host access) := by
  obtain ⟨slots, opening, answer, shows, sound⟩ := valid
  obtain ⟨shown, others, sent, apart⟩ := shows.unconcerned host apart
  refine ⟨slots, opening, answer, shown, ?_⟩
  rw [sent]
  exact sound.others apart

theorem perform_sent (snow : Snow H S) (state : Rendezvous H S) (host : Host) (access : Access) :
    (state.perform snow host access).sent = state.sent ++
      ((state.handlers host).access snow access).2.outgoing.map fun outgoing => ⟨host, outgoing.1, outgoing.2.1⟩ :=
  rfl

theorem perform_joined (snow : Snow H S) (state : Rendezvous H S) (host : Host) (access : Access) :
    (state.perform snow host access).joined = state.joined :=
  rfl

theorem deliver_sent (snow : Snow H S) (peers : Peers) (state : Rendezvous H S) (ephemeral : Nat) (datagram : Datagram) :
    (state.deliver snow peers ephemeral datagram).sent = state.sent ∧
      (state.deliver snow peers ephemeral datagram).joined = state.joined := by
  unfold Rendezvous.deliver
  split
  · exact ⟨rfl, rfl⟩
  next src routed =>
    rw [perform_sent, perform_joined, Handler.datagram_silent, List.map_nil, List.append_nil]
    exact ⟨rfl, rfl⟩

/-- A datagram reaches the slot of the other host, or it changes nothing there. -/
theorem Shows.deliver {slots : Host → Slot H S} {opening : Option (SnowInitiator H)} {answer : Option (S × Bytes)}
    (shows : Shows snow peers state slots) (sound : Sound snow peers slots state.sent state.joined opening answer)
    (completes : snow.Completes (peers.keypairs .first) (peers.keypairs .second)) {datagram : Datagram}
    (member : datagram ∈ state.sent) (ephemeral : Nat) :
    (Shows snow peers (state.deliver snow peers ephemeral datagram) slots ∧
        (datagram.packet.id = peers.id → peers.route datagram.sender datagram.destination = none)) ∨
      ∃ src, datagram.packet.id = peers.id ∧ peers.route datagram.sender datagram.destination = some src ∧
        Shows snow peers (state.deliver snow peers ephemeral datagram) (Function.update slots datagram.sender.other
          ((slots datagram.sender.other).receive snow src datagram.packet ephemeral)) := by
  unfold Rendezvous.deliver
  split
  next lost => exact .inl ⟨shows, fun _ => lost⟩
  next src routed =>
    by_cases same : datagram.packet.id = peers.id
    · have decoded := sound.decodes completes member same
      have about : Access.concerns peers.id (.operate (.handleIncoming src
          (SessionPacket.codec.encode datagram.packet) ephemeral)) = true := by
        simp [Access.concerns, Access.id?, decoded, same]
      have shown := (shows.concerned datagram.sender.other about).1
      rw [(Slot.access_datagram snow _ peers.id _ decoded).1] at shown
      exact .inr ⟨src, same, routed, shown⟩
    · have apart := Access.other_datagram same src ephemeral
      exact .inl ⟨(shows.unconcerned datagram.sender.other apart).1, fun equal => absurd equal same⟩

theorem Valid.deliver (valid : Valid snow peers state)
    (completes : snow.Completes (peers.keypairs .first) (peers.keypairs .second)) {datagram : Datagram}
    (member : datagram ∈ state.sent) (ephemeral : Nat) : Valid snow peers (state.deliver snow peers ephemeral datagram) := by
  obtain ⟨slots, opening, answer, shows, sound⟩ := valid
  obtain ⟨sent, joined⟩ := state.deliver_sent snow peers ephemeral datagram
  rcases shows.deliver sound completes member ephemeral with ⟨shown, -⟩ | ⟨src, same, routed, shown⟩
  · exact ⟨slots, opening, answer, shown, by rw [sent, joined]; exact sound⟩
  · obtain ⟨next, moved⟩ := sound.arrives completes member same routed ephemeral
    exact ⟨_, opening, next, shown, by rw [sent, joined]; exact moved⟩

theorem Valid.call (valid : Valid snow peers state) (host : Host) {access : Access} (unnamed : access.info? = none)
    (call : access.isDatagram = false) : Valid snow peers (state.perform snow host access) := by
  cases about : access.concerns peers.id with
  | false => exact valid.unconcerned host about
  | true =>
    obtain ⟨slots, opening, answer, shows, sound⟩ := valid
    apply Valid.concerned shows about
    cases host with
    | first => exact sound.callFirst unnamed call
    | second => exact sound.callSecond unnamed call

theorem Valid.connect (valid : Valid snow peers state)
    (order : (peers.keypairs .first).publicKey < (peers.keypairs .second).publicKey) {host : Host}
    (unborn : host ∉ state.joined) (ephemeral : Nat) (oneTimeId : OneTimeId) :
    Valid snow peers { state.perform snow host
      ((peers.info host).connect (peers.info host.other) peers.id ephemeral oneTimeId) with joined := host :: state.joined } := by
  obtain ⟨slots, opening, answer, shows, sound⟩ := valid
  have about : ((peers.info host).connect (peers.info host.other) peers.id ephemeral oneTimeId).concerns peers.id = true := by
    unfold ConnectionInfo.connect
    split <;> simp [Access.concerns, Access.id?]
  obtain ⟨shown, sent⟩ := shows.concerned host about
  cases host with
  | first =>
    obtain ⟨silent, opening, moved⟩ := sound.connectFirst (decide_eq_true order) unborn ephemeral oneTimeId
    refine ⟨_, opening, answer, ⟨shown.holds, shown.reached⟩, ?_⟩
    simp only [Host.other, silent, List.map_nil, List.append_nil] at sent
    simp only [Host.other, sent]
    exact moved
  | second =>
    have later : (peers.info .second).isInitiator (peers.info .first) = false := decide_eq_false (List.lt_asymm order)
    obtain ⟨silent, moved⟩ := sound.connectSecond later unborn ephemeral oneTimeId
    refine ⟨_, opening, answer, ⟨shown.holds, shown.reached⟩, ?_⟩
    simp only [Host.other, silent, List.map_nil, List.append_nil] at sent
    simp only [Host.other, sent]
    exact moved

theorem step_valid (completes : snow.Completes (peers.keypairs .first) (peers.keypairs .second))
    (order : (peers.keypairs .first).publicKey < (peers.keypairs .second).publicKey) {label : Label}
    (valid : Valid snow peers state) (stepped : step snow peers state label = some next) : Valid snow peers next := by
  cases label with
  | connect host ephemeral oneTimeId =>
    simp only [step] at stepped
    split at stepped
    · cases stepped
    next unborn =>
      cases stepped
      exact valid.connect order (by simpa using unborn) ephemeral oneTimeId
  | access host access =>
    simp only [step] at stepped
    split at stepped
    next permitted =>
      cases stepped
      cases about : access.concerns peers.id with
      | false => exact valid.unconcerned host about
      | true =>
        obtain ⟨unnamed, call⟩ : access.info? = none ∧ access.isDatagram = false := by
          simpa [permits, about] using permitted
        exact valid.call host unnamed call
    · cases stepped
  | deliver index ephemeral =>
    obtain ⟨datagram, found, rfl⟩ := Option.map_eq_some_iff.mp stepped
    exact valid.deliver completes (List.mem_of_getElem? found) ephemeral

end
end Rendezvous
end Veq
