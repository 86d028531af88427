import Veq.Proofs.Independence
import Veq.Proofs.Naming
import Veq.Proofs.Promotion

/-! What a handler puts on the wire. Every packet goes to an address that its
session was given, or back to where an accepted handshake message came from, and
the packets of one slot leave in the order of the protocol. -/

namespace Veq
open Rust Bincode Machines

variable {H S : Type}

namespace Session

/-- The session after one of its own calls or ticks. -/
structure Continues (session next : Session S) : Prop where
  id : next.id = session.id
  remoteAddr : next.remoteAddr = session.remoteAddr
  stateless : next.transport.stateless = session.transport.stateless
  nextNonce : session.transport.nextNonce ≤ next.transport.nextNonce

variable (cipher : Cipher S) (session : Session S)

theorem encrypt_continues (message : Message) : session.Continues (session.encrypt cipher message).1 := by
  obtain ⟨nextNonce, later, moved⟩ :=
    session.transport.writeMessage_state cipher (Message.codec.encode message) 65535
  rw [encrypt_state, moved]
  exact ⟨rfl, rfl, rfl, later⟩

theorem send_continues (data : Bytes) : session.Continues (session.send cipher data).1 := by
  unfold Session.send
  split
  · exact ⟨rfl, rfl, rfl, Nat.le_refl _⟩
  · exact session.encrypt_continues cipher _

theorem checkHeartbeat_continues : session.Continues session.checkHeartbeat.1 := by
  unfold checkHeartbeat
  split
  · exact ⟨rfl, rfl, rfl, Nat.le_refl _⟩
  · exact ⟨rfl, rfl, rfl, Nat.le_refl _⟩

theorem poll_continues (future : Uuid) (waker : Waker) : session.Continues (session.poll future waker).1 := by
  unfold Session.poll
  split
  · exact ⟨rfl, rfl, rfl, Nat.le_refl _⟩
  · split
    · exact ⟨rfl, rfl, rfl, Nat.le_refl _⟩
    · exact ⟨rfl, rfl, rfl, Nat.le_refl _⟩

end Session

theorem LossyTransportState.readMessage_nextNonce (cipher : Cipher S) (state : LossyTransportState S) (payload : Bytes)
    (capacity : Nat) : (state.readMessage cipher payload capacity).1.nextNonce = state.nextNonce := by
  unfold readMessage
  split
  · rfl
  · split
    · rfl
    · dsimp only
      split <;> rfl

theorem afterPacket_nextNonce (cipher : Cipher S) (transport : LossyTransportState S) (packet : SessionPacket) :
    (afterPacket cipher transport packet).nextNonce = transport.nextNonce := by
  unfold afterPacket
  split
  · rfl
  · exact transport.readMessage_nextNonce cipher _ 65535

theorem Session.handleIncoming_continues (cipher : Cipher S) (session : Session S) (packet : SessionPacket) :
    session.Continues (session.handleIncoming cipher packet).1 := by
  refine ⟨session.handleIncoming_id cipher packet, ?_, session.handleIncoming_stateless packet, ?_⟩
  · unfold handleIncoming
    split
    · rfl
    · rfl
    · rfl
    · rfl
    · split
      · rfl
      · split <;> rfl
  · rw [(session.handleIncoming_state cipher packet).1, afterPacket_nextNonce]

theorem Session.handleIncoming_dead (cipher : Cipher S) (session : Session S) (packet : SessionPacket) :
    (session.handleIncoming cipher packet).1.dead = session.dead := by
  unfold handleIncoming
  split
  · rfl
  · rfl
  · rfl
  · rfl
  · split
    · rfl
    · split <;> rfl

theorem RawMessage.variants_encrypted {index : Nat} {fields data rest : Bytes}
    (selected : ((variants index).bind fun codec => codec.decode fields) = some (.encrypted data, rest)) : index = 3 := by
  match index with
  | 0 => simp [variants, Codec.variant, Codec.unit] at selected
  | 1 => simp [variants, Codec.variant, Option.bind_eq_some_iff] at selected
  | 2 => simp [variants, Codec.variant, Option.bind_eq_some_iff] at selected
  | 3 => rfl
  | _ + 4 => cases selected

namespace SessionPacket

def variant (packet : SessionPacket) : Option Nat := Codec.u32.deserialize packet.data

/-- The nonce under which the message of a packet is encrypted. -/
def nonce? (packet : SessionPacket) : Option Nat :=
  (packet.encrypted.bind Nonced.codec.deserialize).map Nonced.nonce

theorem variant_encode (id : SessionId) (message : RawMessage) :
    variant ⟨id, RawMessage.codec.encode message⟩ = some message.tag := by
  have small : Codec.u32.Fits message.tag := by
    cases message <;> exact Codec.fits_u32.mpr (by simp [RawMessage.tag])
  exact congrArg (Option.map Prod.fst) (Codec.u32.decode_encode message.tag _ small)

theorem nonce?_variant {packet : SessionPacket} {nonce : Nat} (carried : packet.nonce? = some nonce) :
    packet.variant = some 3 := by
  have decoded : packet.encrypted ≠ none := by
    intro absent
    simp [nonce?, absent] at carried
  unfold encrypted at decoded
  split at decoded
  next ciphertext found =>
    obtain ⟨⟨message, rest⟩, parsed, rfl⟩ := Option.map_eq_some_iff.mp found
    obtain ⟨⟨index, fields⟩, read, selected⟩ := Option.bind_eq_some_iff.mp parsed
    simp [variant, Codec.deserialize, read, RawMessage.variants_encrypted selected]
  · exact absurd rfl decoded

end SessionPacket

namespace Session

theorem encrypt_outgoing {cipher : Cipher S} {session : Session S} {message : Message} {outgoing : Outgoing}
    (encrypted : (session.encrypt cipher message).2 = .ok outgoing) :
    ∃ data, outgoing = (session.remoteAddr, ⟨session.id, RawMessage.codec.encode (.encrypted data)⟩, 64) ∧
      data.length ≤ 65535 ∧ outgoing.2.1.nonce? = some session.transport.nextNonce ∧
      (session.encrypt cipher message).1.transport.nextNonce = session.transport.nextNonce + 1 := by
  unfold encrypt LossyTransportState.writeMessage at encrypted ⊢
  cases added : addU64 session.transport.nextNonce 1 with
  | error panic => simp [added] at encrypted
  | ok nextNonce =>
    obtain ⟨rfl, bounded⟩ := addU64_ok added
    simp only [added] at encrypted ⊢
    cases written : cipher.writeMessage session.transport.stateless session.transport.nextNonce
        (Message.codec.encode message) 65535 with
    | none => simp [written] at encrypted
    | some ciphertext =>
      simp only [written, Nonced.length_encode] at encrypted ⊢
      split at encrypted
      next short =>
        cases encrypted
        rw [if_pos short]
        refine ⟨_, rfl, by simp, ?_, rfl⟩
        have whole : ((Nonced.codec.encode ⟨session.transport.nextNonce, ciphertext⟩).take 65535).take
            (ciphertext.length + 16) = Nonced.codec.encode ⟨session.transport.nextNonce, ciphertext⟩ := by
          rw [List.take_take, List.take_of_length_le]
          rw [Nonced.length_encode]
          exact Nat.le_min.mpr ⟨Nat.le_refl _, short⟩
        have fits : Nonced.codec.Fits ⟨session.transport.nextNonce, ciphertext⟩ :=
          Nonced.fits (by simp only; omega) (by simp only; omega)
        have size : (Nonced.codec.encode ⟨session.transport.nextNonce, ciphertext⟩).length < 2 ^ 64 := by
          rw [Nonced.length_encode]
          simp only
          omega
        simp only [SessionPacket.nonce?, SessionPacket.encrypted, whole,
          RawMessage.codec.deserialize_encode (RawMessage.fits_encrypted size), Option.bind_some,
          Nonced.codec.deserialize_encode fits, Option.map_some]
      · cases encrypted

end Session

namespace JoinHandle

/-- A task sends one message of one session, and only to granted addresses. -/
def Sends (handle : JoinHandle) (id : SessionId) (granted : SocketAddr → Prop) (message : RawMessage) : Prop :=
  ∀ outgoing ∈ handle.packets, granted outgoing.1 ∧ outgoing.2 = (⟨id, RawMessage.codec.encode message⟩, 64)

theorem spawn_sends {id : SessionId} {addresses : List SocketAddr} {granted : SocketAddr → Prop}
    (all : ∀ address ∈ addresses, granted address) (message : RawMessage) :
    (spawn id addresses message).Sends id granted message := by
  intro outgoing member
  obtain ⟨address, named, rfl⟩ := List.mem_map.mp member
  exact ⟨all address named, rfl⟩

theorem Sends.imp {handle : JoinHandle} {id : SessionId} {granted wider : SocketAddr → Prop} {message : RawMessage}
    (sends : handle.Sends id granted message) (widens : ∀ address, granted address → wider address) :
    handle.Sends id wider message :=
  fun outgoing member => ⟨widens _ (sends outgoing member).1, (sends outgoing member).2⟩

theorem mem_tick {handle : JoinHandle} {outgoing : Outgoing} (member : outgoing ∈ handle.tick) :
    outgoing ∈ handle.packets := by
  unfold tick at member
  split at member
  · cases member
  · exact member

end JoinHandle

namespace Slot

/-- No handshake message waits in a pending session. -/
def Idle : Slot H S → Prop
  | .poking pending _ => pending.workingRemoteAddr = none
  | .initiating pending _ => pending.workingRemoteAddr = none
  | _ => True

/-- Everything that an access other than a connect can do to a slot. -/
inductive Moves (snow : Snow H S) (access : Access) : Slot H S → Slot H S → Prop
  | stays (slot : Slot H S) : Moves snow access slot slot
  | vacates (slot : Slot H S) : Moves snow access slot .vacant
  | responds {pending : PendingSessionPoker H} {src : SocketAddr} {data : Bytes} {ephemeral : Nat} {packet : SessionPacket}
      {transport : LossyTransportState S} {response : Bytes} (oneTimeId : OneTimeId)
      (datagram : access = .operate (.handleIncoming src data ephemeral))
      (decoded : SessionPacket.codec.deserialize data = some packet)
      (accepted : pending.advance snow src packet ephemeral = .promote (.new pending.id src transport response)) :
      Moves snow access (.poking pending oneTimeId) (.responding (.new pending.id src transport response) oneTimeId)
  | refuses {src : SocketAddr} {data : Bytes} {ephemeral : Nat} (pending : PendingSessionInitiator H)
      (initiator : SnowInitiator H) (oneTimeId : OneTimeId)
      (datagram : access = .operate (.handleIncoming src data ephemeral)) : Moves snow access (.initiating pending oneTimeId) (.initiating
        { pending with handle := pending.handle.abort, workingRemoteAddr := none, waker := none, initiator } oneTimeId)
  | opens {pending : PendingSessionInitiator H} {src : SocketAddr} {data : Bytes} {ephemeral : Nat} {packet : SessionPacket}
      {transport : LossyTransportState S} (oneTimeId : OneTimeId)
      (datagram : access = .operate (.handleIncoming src data ephemeral))
      (decoded : SessionPacket.codec.deserialize data = some packet)
      (accepted : pending.advance snow src packet = .promote (.new pending.id src transport)) :
      Moves snow access (.initiating pending oneTimeId) (.established (.new pending.id src transport) oneTimeId)
  | waits {pending next : PendingSessionResponder S} {src : SocketAddr} {data : Bytes} {ephemeral : Nat}
      (oneTimeId : OneTimeId) (datagram : access = .operate (.handleIncoming src data ephemeral)) (handle : next.handle = pending.handle)
      (id : next.id = pending.id) (remoteAddr : next.remoteAddr = pending.remoteAddr)
      (nextNonce : next.transport.nextNonce = pending.transport.nextNonce) :
      Moves snow access (.responding pending oneTimeId) (.responding next oneTimeId)
  | confirms {pending : PendingSessionResponder S} {transport : LossyTransportState S} {src : SocketAddr} {data : Bytes}
      {ephemeral : Nat} (oneTimeId : OneTimeId) (datagram : access = .operate (.handleIncoming src data ephemeral))
      (nextNonce : transport.nextNonce = pending.transport.nextNonce) :
      Moves snow access (.responding pending oneTimeId) (.established (.new pending.id pending.remoteAddr transport) oneTimeId)
  | continues {session next : Session S} (oneTimeId : OneTimeId) (same : session.Continues next) :
      Moves snow access (.established session oneTimeId) (.established next oneTimeId)

variable {snow : Snow H S} {access : Access} {slot next : Slot H S}

theorem Moves.idle (moves : Moves snow access slot next) (idle : slot.Idle) : next.Idle := by
  cases moves with
  | stays => exact idle
  | refuses => rfl
  | _ => trivial

theorem receive_moves {src : SocketAddr} {data : Bytes} {ephemeral : Nat} {packet : SessionPacket} (idle : slot.Idle)
    (datagram : access = .operate (.handleIncoming src data ephemeral))
    (decoded : SessionPacket.codec.deserialize data = some packet) :
    Moves snow access slot (slot.receive snow src packet ephemeral) := by
  cases slot with
  | vacant => exact .stays _
  | poking pending oneTimeId =>
    rw [receive]
    cases carried : packet.initiation with
    | none =>
      rw [PendingSessionPoker.advance_other snow idle carried]
      exact .stays _
    | some initiation =>
      have advanced : pending.advance snow src packet ephemeral = _ :=
        PendingSessionPoker.advance_initiation snow carried src ephemeral
      cases answered : pending.snowResponder.response snow initiation ephemeral with
      | error failure =>
        rw [answered] at advanced
        rw [advanced]
        exact .vacates _
      | ok result =>
        rw [answered] at advanced
        rw [advanced]
        exact .responds oneTimeId datagram decoded advanced
  | initiating pending oneTimeId =>
    rw [receive]
    cases carried : packet.response with
    | none =>
      rw [PendingSessionInitiator.advance_other snow idle carried]
      exact .stays _
    | some response =>
      have advanced : pending.advance snow src packet = _ :=
        PendingSessionInitiator.advance_response snow carried src
      cases answered : pending.initiator.receiveResponse snow response with
      | error failure =>
        rw [answered] at advanced
        rw [advanced]
        exact .vacates _
      | ok result =>
        rw [answered] at advanced
        rw [advanced]
        cases result with
        | ok transport => exact .opens oneTimeId datagram decoded advanced
        | err initiator => exact .refuses pending initiator oneTimeId datagram
  | responding pending oneTimeId =>
    have after := afterPacket_nextNonce snow.toCipher pending.transport packet
    rw [receive, PendingSessionResponder.advance, PendingSessionResponder.isReady, PendingSessionResponder.session]
    rcases pending.handleIncoming_cases snow.toCipher packet with ⟨-, handled⟩ | ⟨-, handled, -⟩
    · rw [handled]
      exact .confirms oneTimeId datagram after
    · rw [handled]
      cases ready : pending.ready with
      | true => exact .confirms oneTimeId datagram after
      | false => exact .waits oneTimeId datagram rfl rfl rfl after
  | established session oneTimeId => exact .continues oneTimeId (session.handleIncoming_continues _ packet)

theorem access_moves (snow : Snow H S) (keypair : SnowKeypair) (id : SessionId) (idle : slot.Idle)
    (unnamed : access.info? = none) : Moves snow access slot (slot.access snow keypair id access).1 := by
  cases access with
  | operate operation =>
    cases operation with
    | initiate | respond => cases unnamed
    | handleIncoming src data ephemeral =>
      rw [Slot.access]
      cases decoded : SessionPacket.codec.deserialize data with
      | none => exact .stays slot
      | some packet => exact receive_moves idle rfl decoded
    | send other data =>
      cases slot with
      | established session oneTimeId => exact .continues oneTimeId (session.send_continues _ data)
      | _ => exact .stays _
    | recvFrom other =>
      cases slot with
      | established session oneTimeId =>
        simp only [Slot.access, recvFrom]
        split
        · exact .vacates _
        · exact .stays _
      | _ => exact .stays _
    | closeSession other oneTimeId =>
      simp only [Slot.access, close]
      split
      · exact .vacates slot
      · exact .stays slot
    | keepalive other =>
      cases slot with
      | established session oneTimeId => exact .continues oneTimeId (session.encrypt_continues _ .keepalive)
      | _ => exact .stays _
    | checkHeartbeat other =>
      cases slot with
      | established session oneTimeId => exact .continues oneTimeId session.checkHeartbeat_continues
      | _ => exact .stays _
  | poll other receiving future waker =>
    cases slot with
    | established session oneTimeId =>
      simp only [Slot.access, Slot.poll]
      split
      · exact .continues oneTimeId (session.poll_continues future waker)
      · exact .stays _
    | _ => exact .stays _
  | retransmit other => exact .stays slot
  | remoteAddr other => exact .stays slot

theorem access_outgoing {keypair : SnowKeypair} {id : SessionId} {outgoing : Outgoing}
    (member : outgoing ∈ (slot.access snow keypair id access).2.outgoing) :
    (outgoing ∈ slot.retransmissions ∧ (slot.access snow keypair id access).1 = slot ∧
        (slot.access snow keypair id access).2.outgoing = slot.retransmissions) ∨
      ∃ session oneTimeId message, slot = .established session oneTimeId ∧
        (session.encrypt snow.toCipher message).2 = .ok outgoing ∧
        (slot.access snow keypair id access).1 = .established (session.encrypt snow.toCipher message).1 oneTimeId ∧
        (slot.access snow keypair id access).2.outgoing = [outgoing] := by
  cases access with
  | operate operation =>
    cases operation with
    | initiate other info ephemeral oneTimeId =>
      simp only [Slot.access, initiate] at member
      split at member <;> cases member
    | respond other info oneTimeId =>
      simp only [Slot.access, respond] at member
      split at member <;> cases member
    | handleIncoming src data ephemeral =>
      simp only [Slot.access] at member
      split at member <;> cases member
    | send other data =>
      cases slot with
      | established session oneTimeId =>
        refine .inr ⟨session, oneTimeId, .payload data, rfl, ?_⟩
        simp only [Slot.access, send, Session.send] at member ⊢
        split at member
        · cases member
        next alive =>
          rw [if_neg alive]
          cases encrypted : (session.encrypt snow.toCipher (.payload data)).2 with
          | error failure => simp [encrypted, Output.outgoing] at member
          | ok emitted =>
            simp only [encrypted, Output.outgoing, List.mem_singleton] at member ⊢
            subst member
            exact ⟨rfl, trivial, rfl⟩
      | _ => cases member
    | recvFrom other =>
      cases slot with
      | established session oneTimeId =>
        simp only [Slot.access, recvFrom] at member
        split at member <;> cases member
      | _ => cases member
    | closeSession other oneTimeId => cases member
    | keepalive other =>
      cases slot with
      | established session oneTimeId =>
        refine .inr ⟨session, oneTimeId, .keepalive, rfl, ?_⟩
        simp only [Slot.access, keepalive, Session.keepalive] at member ⊢
        cases encrypted : (session.encrypt snow.toCipher .keepalive).2 with
        | error failure => simp [encrypted, Output.outgoing] at member
        | ok emitted =>
          simp only [encrypted, Output.outgoing, List.mem_singleton] at member ⊢
          subst member
          exact ⟨rfl, trivial, rfl⟩
      | _ => cases member
    | checkHeartbeat other =>
      cases slot with
      | established session oneTimeId => cases member
      | _ => cases member
  | poll other receiving future waker =>
    cases slot with
    | established session oneTimeId =>
      simp only [Slot.access, Slot.poll] at member
      split at member <;> cases member
    | _ => cases member
  | retransmit other => exact .inl ⟨member, rfl, rfl⟩
  | remoteAddr other => cases member

theorem call_cases (snow : Snow H S) (keypair : SnowKeypair) (id : SessionId) (idle : slot.Idle)
    (unnamed : access.info? = none) (call : access.isDatagram = false) :
    ((slot.access snow keypair id access).1 = slot ∧
        ∀ outgoing ∈ (slot.access snow keypair id access).2.outgoing, outgoing ∈ slot.retransmissions) ∨
      ((slot.access snow keypair id access).1 = .vacant ∧ (slot.access snow keypair id access).2.outgoing = []) ∨
      ∃ session next oneTimeId, slot = .established session oneTimeId ∧
        (slot.access snow keypair id access).1 = .established next oneTimeId ∧ session.Continues next ∧
        ∀ outgoing ∈ (slot.access snow keypair id access).2.outgoing, ∃ data,
          outgoing = (session.remoteAddr, ⟨session.id, RawMessage.codec.encode (.encrypted data)⟩, 64) ∧
          data.length ≤ 65535 ∧ outgoing.2.1.nonce? = some session.transport.nextNonce ∧
          next.transport.nextNonce = session.transport.nextNonce + 1 := by
  have moves := access_moves snow keypair id idle unnamed
  cases emits : (slot.access snow keypair id access).2.outgoing with
  | nil =>
    generalize reached : (slot.access snow keypair id access).1 = next at moves
    cases moves with
    | stays => exact .inl ⟨rfl, by simp⟩
    | vacates => exact .inr (.inl ⟨rfl, rfl⟩)
    | continues oneTimeId same => exact .inr (.inr ⟨_, _, oneTimeId, rfl, rfl, same, by simp⟩)
    | responds _ datagram | refuses _ _ _ datagram | opens _ datagram | waits _ datagram | confirms _ datagram =>
      subst datagram
      cases call
  | cons outgoing rest =>
    have emitted : outgoing ∈ (slot.access snow keypair id access).2.outgoing := by simp [emits]
    rcases access_outgoing emitted with ⟨-, same, all⟩ | ⟨session, oneTimeId, message, rfl, encrypted, moved, all⟩
    · rw [← emits, all]
      exact .inl ⟨same, fun _ member => member⟩
    · rw [← emits, all]
      refine .inr (.inr ⟨session, _, oneTimeId, rfl, moved, session.encrypt_continues _ message, ?_⟩)
      intro other member
      rw [List.mem_singleton.mp member]
      exact Session.encrypt_outgoing encrypted

/-- The tasks and addresses of a slot, by stage. -/
def Formed (id : SessionId) (granted : SocketAddr → Prop) : Slot H S → Prop
  | .vacant => True
  | .poking pending _ => pending.id = id ∧ pending.handle.Sends id granted .handshakePoke
  | .initiating pending _ =>
    pending.id = id ∧ ∃ initiation, pending.handle.Sends id granted (.handshakeInitiation initiation)
  | .responding pending _ =>
    pending.id = id ∧ granted pending.remoteAddr ∧
      ∃ response, pending.handle.Sends id granted (.handshakeResponse response)
  | .established session _ => session.id = id ∧ granted session.remoteAddr

/-- The packet carries a handshake message that the session accepts. -/
def Accepts (snow : Snow H S) (src : SocketAddr) (packet : SessionPacket) (ephemeral : Nat) : Slot H S → Prop
  | .poking pending _ => ∃ next, pending.advance snow src packet ephemeral = .promote next
  | .initiating pending _ => ∃ session, pending.advance snow src packet = .promote session
  | _ => False

namespace Formed

variable {id : SessionId} {granted wider : SocketAddr → Prop}

theorem imp (formed : slot.Formed id granted) (widens : ∀ address, granted address → wider address) :
    slot.Formed id wider := by
  cases slot with
  | vacant => trivial
  | poking pending oneTimeId => exact ⟨formed.1, formed.2.imp widens⟩
  | initiating pending oneTimeId =>
    obtain ⟨same, initiation, sends⟩ := formed
    exact ⟨same, initiation, sends.imp widens⟩
  | responding pending oneTimeId =>
    obtain ⟨same, address, response, sends⟩ := formed
    exact ⟨same, widens _ address, response, sends.imp widens⟩
  | established session oneTimeId => exact ⟨formed.1, widens _ formed.2⟩

theorem moves (formed : slot.Formed id granted) (moves : Moves snow access slot next)
    (accepted : ∀ src data ephemeral packet, access = .operate (.handleIncoming src data ephemeral) →
      SessionPacket.codec.deserialize data = some packet → slot.Accepts snow src packet ephemeral → granted src) :
    next.Formed id granted := by
  cases moves with
  | stays => exact formed
  | vacates => trivial
  | @responds pending src data ephemeral packet transport response oneTimeId datagram decoded promoted =>
    have heard := accepted src data ephemeral packet datagram decoded ⟨_, promoted⟩
    obtain ⟨rfl, -⟩ := formed
    exact ⟨rfl, heard, response, JoinHandle.spawn_sends (by simpa using heard) _⟩
  | refuses => exact formed
  | @opens pending src data ephemeral packet transport oneTimeId datagram decoded promoted =>
    exact ⟨formed.1, accepted src data ephemeral packet datagram decoded ⟨_, promoted⟩⟩
  | waits oneTimeId datagram handle same remoteAddr nextNonce =>
    obtain ⟨named, address, response, sends⟩ := formed
    refine ⟨same.trans named, remoteAddr.symm ▸ address, response, ?_⟩
    rw [handle]
    exact sends
  | confirms => exact ⟨formed.1, formed.2.1⟩
  | continues oneTimeId same => exact ⟨same.id.trans formed.1, same.remoteAddr.symm ▸ formed.2⟩

theorem step (formed : slot.Formed id granted) (idle : slot.Idle) (keypair : SnowKeypair) (access : Access)
    (kept : access.info? = none → ∀ address, granted address → wider address)
    (named : ∀ info ∈ access.info?, ∀ address ∈ info.addresses, wider address)
    (accepted : ∀ src data ephemeral packet, access = .operate (.handleIncoming src data ephemeral) →
      SessionPacket.codec.deserialize data = some packet → slot.Accepts snow src packet ephemeral → wider src) :
    (slot.access snow keypair id access).1.Formed id wider ∧ (slot.access snow keypair id access).1.Idle := by
  cases connects : access.info? with
  | none =>
    have moved := access_moves snow keypair id idle connects
    exact ⟨(formed.imp (kept connects)).moves moved accepted, moved.idle idle⟩
  | some info =>
    have all := named info connects
    cases access with
    | operate operation =>
      cases operation with
      | initiate other info ephemeral oneTimeId =>
        cases connects
        simp only [Slot.access, initiate]
        split
        · exact ⟨trivial, trivial⟩
        · exact ⟨⟨rfl, _, JoinHandle.spawn_sends all _⟩, rfl⟩
      | respond other info oneTimeId =>
        cases connects
        simp only [Slot.access, respond]
        split
        · exact ⟨trivial, trivial⟩
        · exact ⟨⟨rfl, JoinHandle.spawn_sends all _⟩, rfl⟩
      | _ => cases connects
    | _ => cases connects

theorem outgoing (formed : slot.Formed id granted) {keypair : SnowKeypair} {outgoing : Outgoing}
    (member : outgoing ∈ (slot.access snow keypair id access).2.outgoing) :
    granted outgoing.1 ∧ outgoing.2.1.id = id ∧ outgoing.2.2 = 64 := by
  rcases access_outgoing member with ⟨retransmitted, -, -⟩ | ⟨session, oneTimeId, message, rfl, encrypted, -, -⟩
  · cases slot with
    | vacant | established => cases retransmitted
    | poking pending oneTimeId =>
      obtain ⟨address, contents⟩ := formed.2 outgoing (JoinHandle.mem_tick retransmitted)
      exact ⟨address, by rw [contents], by rw [contents]⟩
    | initiating pending oneTimeId =>
      obtain ⟨-, initiation, sends⟩ := formed
      obtain ⟨address, contents⟩ := sends outgoing (JoinHandle.mem_tick retransmitted)
      exact ⟨address, by rw [contents], by rw [contents]⟩
    | responding pending oneTimeId =>
      obtain ⟨-, -, response, sends⟩ := formed
      obtain ⟨address, contents⟩ := sends outgoing (JoinHandle.mem_tick retransmitted)
      exact ⟨address, by rw [contents], by rw [contents]⟩
  · obtain ⟨data, rfl, -, -, -⟩ := Session.encrypt_outgoing encrypted
    exact ⟨formed.2, formed.1, rfl⟩

end Formed

/-- The packets that a slot may still emit, as long as it is not connected anew. -/
def Admits : Slot H S → SessionPacket → Prop
  | .vacant, _ => False
  | .poking _ _, packet => packet.variant = some 0 ∨ packet.variant = some 2 ∨ packet.nonce?.isSome
  | .initiating _ _, packet => packet.variant = some 1 ∨ packet.nonce?.isSome
  | .responding pending _, packet =>
    packet.variant = some 2 ∨ ∃ nonce, packet.nonce? = some nonce ∧ pending.transport.nextNonce ≤ nonce
  | .established session _, packet => ∃ nonce, packet.nonce? = some nonce ∧ session.transport.nextNonce ≤ nonce

theorem Moves.admits {packet : SessionPacket} (moves : Moves snow access slot next) (admits : next.Admits packet) :
    slot.Admits packet := by
  cases moves with
  | stays => exact admits
  | vacates => cases admits
  | responds =>
    rcases admits with response | ⟨nonce, carried, -⟩
    · exact .inr (.inl response)
    · exact .inr (.inr (by simp [carried]))
  | refuses => exact admits
  | opens =>
    obtain ⟨nonce, carried, -⟩ := admits
    exact .inr (by simp [carried])
  | waits oneTimeId datagram handle same remoteAddr nextNonce =>
    rcases admits with response | ⟨nonce, carried, later⟩
    · exact .inl response
    · exact .inr ⟨nonce, carried, nextNonce ▸ later⟩
  | confirms oneTimeId datagram nextNonce =>
    obtain ⟨nonce, carried, later⟩ := admits
    exact .inr ⟨nonce, carried, nextNonce ▸ later⟩
  | continues oneTimeId same =>
    obtain ⟨nonce, carried, later⟩ := admits
    exact ⟨nonce, carried, Nat.le_trans same.nextNonce later⟩

end Slot

/-- The first packet may be emitted before the second one in one run of the protocol. -/
structure SessionPacket.Precedes (first second : SessionPacket) : Prop where
  variants : ∀ tag ∈ first.variant, ∀ later ∈ second.variant, tag ≤ later
  nonces : ∀ nonce ∈ first.nonce?, ∀ later ∈ second.nonce?, nonce < later

namespace Slot

variable {snow : Snow H S} {access : Access} {slot next : Slot H S}

theorem precedes_of_variant {first second : SessionPacket} {tag later : Nat} (variant : first.variant = some tag)
    (handshake : tag < 3) (other : second.variant = some later) (ordered : tag ≤ later) : first.Precedes second := by
  refine ⟨?_, ?_⟩
  · intro one first two second
    cases variant.symm.trans first
    cases other.symm.trans second
    exact ordered
  · intro nonce carried
    have ciphertext := SessionPacket.nonce?_variant carried
    rw [variant] at ciphertext
    cases ciphertext
    omega

/-- What the task of a slot sends, the slot admits, and it comes before whatever
else the slot admits. -/
theorem Formed.retransmitted {id : SessionId} {granted : SocketAddr → Prop} (formed : slot.Formed id granted)
    {outgoing : Outgoing} (member : outgoing ∈ slot.retransmissions) :
    slot.Admits outgoing.2.1 ∧ ∀ later, slot.Admits later → outgoing.2.1.Precedes later := by
  cases slot with
  | vacant | established => cases member
  | poking pending oneTimeId =>
    have variant : outgoing.2.1.variant = some 0 := by
      rw [(formed.2 outgoing (JoinHandle.mem_tick member)).2]
      exact SessionPacket.variant_encode id .handshakePoke
    refine ⟨.inl variant, ?_⟩
    rintro later (same | response | ciphertext)
    · exact precedes_of_variant variant (by omega) same (Nat.le_refl _)
    · exact precedes_of_variant variant (by omega) response (by omega)
    · obtain ⟨nonce, carried⟩ := Option.isSome_iff_exists.mp ciphertext
      exact precedes_of_variant variant (by omega) (SessionPacket.nonce?_variant carried) (by omega)
  | initiating pending oneTimeId =>
    obtain ⟨-, initiation, sends⟩ := formed
    have variant : outgoing.2.1.variant = some 1 := by
      rw [(sends outgoing (JoinHandle.mem_tick member)).2]
      exact SessionPacket.variant_encode id (.handshakeInitiation initiation)
    refine ⟨.inl variant, ?_⟩
    rintro later (same | ciphertext)
    · exact precedes_of_variant variant (by omega) same (Nat.le_refl _)
    · obtain ⟨nonce, carried⟩ := Option.isSome_iff_exists.mp ciphertext
      exact precedes_of_variant variant (by omega) (SessionPacket.nonce?_variant carried) (by omega)
  | responding pending oneTimeId =>
    obtain ⟨-, -, response, sends⟩ := formed
    have variant : outgoing.2.1.variant = some 2 := by
      rw [(sends outgoing (JoinHandle.mem_tick member)).2]
      exact SessionPacket.variant_encode id (.handshakeResponse response)
    refine ⟨.inl variant, ?_⟩
    rintro later (same | ⟨nonce, carried, -⟩)
    · exact precedes_of_variant variant (by omega) same (Nat.le_refl _)
    · exact precedes_of_variant variant (by omega) (SessionPacket.nonce?_variant carried) (by omega)

theorem Formed.stays {id : SessionId} (formed : slot.Formed id fun _ => True) (idle : slot.Idle) (snow : Snow H S)
    (keypair : SnowKeypair) (access : Access) :
    (slot.access snow keypair id access).1.Formed id (fun _ => True) ∧ (slot.access snow keypair id access).1.Idle :=
  formed.step idle keypair access (fun _ _ _ => trivial) (fun _ _ _ _ => trivial) (fun _ _ _ _ _ _ _ => trivial)

/-- The role that a connect takes decides which handshake messages follow. -/
theorem connect_admits {keypair : SnowKeypair} {id : SessionId} {packet : SessionPacket} (connects : access.info? ≠ none)
    (admits : (slot.access snow keypair id access).1.Admits packet) : packet.nonce?.isSome ∨
      if access.initiates then packet.variant = some 1 else packet.variant = some 0 ∨ packet.variant = some 2 := by
  cases access with
  | operate operation =>
    cases operation with
    | initiate other info ephemeral oneTimeId =>
      simp only [Slot.access, initiate] at admits
      split at admits
      · cases admits
      · exact admits.symm
    | respond other info oneTimeId =>
      simp only [Slot.access, respond] at admits
      split at admits
      · cases admits
      · rcases admits with poke | response | ciphertext
        · exact .inr (.inl poke)
        · exact .inr (.inr response)
        · exact .inl ciphertext
    | _ => exact absurd rfl connects
  | _ => exact absurd rfl connects

theorem access_emits (snow : Snow H S) (keypair : SnowKeypair) (id : SessionId) :
    Emits (Slot.access snow keypair id) Output.sessionPackets (fun access => access.info? = none)
      (fun slot => slot.Formed id (fun _ => True) ∧ slot.Idle) Admits SessionPacket.Precedes := by
  constructor
  · intro slot access unnamed valid
    exact valid.1.stays valid.2 snow keypair access
  · intro slot access unnamed valid packet admits
    exact (access_moves snow keypair id valid.2 unnamed).admits admits
  · intro slot access unnamed valid packet member
    obtain ⟨outgoing, emitted, rfl⟩ := List.mem_map.mp member
    rcases access_outgoing emitted with ⟨sent, -, -⟩ | ⟨session, oneTimeId, message, rfl, encrypted, -, -⟩
    · exact (valid.1.retransmitted sent).1
    · obtain ⟨data, -, -, nonce, -⟩ := Session.encrypt_outgoing encrypted
      exact ⟨_, nonce, Nat.le_refl _⟩
  · intro slot access unnamed valid
    cases emits : (slot.access snow keypair id access).2.outgoing with
    | nil => simp [Output.sessionPackets, emits]
    | cons outgoing rest =>
      have emitted : outgoing ∈ (slot.access snow keypair id access).2.outgoing := by simp [emits]
      rcases access_outgoing emitted with ⟨-, -, all⟩ | ⟨session, oneTimeId, message, -, -, -, all⟩
      · rw [Output.sessionPackets, all]
        apply List.pairwise_of_forall_mem_list
        intro first firstMember second secondMember
        obtain ⟨one, sent, rfl⟩ := List.mem_map.mp firstMember
        obtain ⟨two, together, rfl⟩ := List.mem_map.mp secondMember
        exact (valid.1.retransmitted sent).2 _ (valid.1.retransmitted together).1
      · rw [Output.sessionPackets, all]
        exact List.pairwise_singleton _ _
  · intro slot access unnamed valid packet member later admits
    obtain ⟨outgoing, emitted, rfl⟩ := List.mem_map.mp member
    rcases access_outgoing emitted with ⟨sent, same, -⟩ | ⟨session, oneTimeId, message, rfl, encrypted, moved, -⟩
    · rw [same] at admits
      exact (valid.1.retransmitted sent).2 later admits
    · obtain ⟨data, -, -, nonce, advanced⟩ := Session.encrypt_outgoing encrypted
      rw [moved] at admits
      obtain ⟨next, carried, after⟩ := admits
      refine ⟨?_, ?_⟩
      · intro one first two second
        cases (SessionPacket.nonce?_variant nonce).symm.trans first
        cases (SessionPacket.nonce?_variant carried).symm.trans second
        exact Nat.le_refl _
      · intro one first two second
        cases nonce.symm.trans first
        cases carried.symm.trans second
        omega

end Slot

namespace Handler

/-- The access lets the packets of the session `id` go to `address`: a connect
names it, or a handshake message that the session accepts comes from it. -/
def Grants (snow : Snow H S) (handler : Handler H S) (id : SessionId) (address : SocketAddr) : Access → Prop
  | .operate (.handleIncoming src data ephemeral) =>
    src = address ∧ ∃ packet oneTimeId, SessionPacket.codec.deserialize data = some packet ∧ packet.id = id ∧
      (handler.fate snow src packet ephemeral = some (oneTimeId, .advance .poker .responder) ∨
        handler.fate snow src packet ephemeral = some (oneTimeId, .advance .initiator .established))
  | access => access.concerns id = true ∧ ∃ info ∈ access.info?, address ∈ info.addresses

/-- The address was granted in the run, and the session was not connected anew since. -/
def Granted (snow : Snow H S) (keypair : SnowKeypair) (history : List Access) (id : SessionId) (address : SocketAddr) :
    Prop :=
  ∃ before grant between, history = before ++ grant :: between ∧
    Grants snow (after (Handler.access snow) (Handler.new keypair) before) id address grant ∧
    ∀ other ∈ between, other.concerns id = true → other.info? = none

section

variable {snow : Snow H S} {keypair : SnowKeypair} {id : SessionId} {handler : Handler H S} {slot : Slot H S}
  {history : List Access} {last : Access} {address : SocketAddr}

theorem Granted.later (granted : Granted snow keypair history id address)
    (same : last.concerns id = true → last.info? = none) : Granted snow keypair (history ++ [last]) id address := by
  obtain ⟨before, grant, between, rfl, grants, quiet⟩ := granted
  refine ⟨before, grant, between ++ [last], by simp, grants, ?_⟩
  intro other member
  rcases List.mem_append.mp member with earlier | now
  · exact quiet other earlier
  · rw [List.mem_singleton.mp now]
    exact same

theorem Granted.now (grants : Grants snow (after (Handler.access snow) (Handler.new keypair) history) id address last) :
    Granted snow keypair (history ++ [last]) id address :=
  ⟨history, last, [], rfl, grants, by simp⟩

theorem Holds.grants (holds : Holds keypair id handler slot) {src : SocketAddr} {data : Bytes} {ephemeral : Nat}
    {packet : SessionPacket} (decoded : SessionPacket.codec.deserialize data = some packet) (same : packet.id = id)
    (accepts : slot.Accepts snow src packet ephemeral) :
    Grants snow handler id src (.operate (.handleIncoming src data ephemeral)) := by
  subst same
  cases slot with
  | poking pending oneTimeId =>
    obtain ⟨next, promoted⟩ := accepts
    refine ⟨rfl, packet, oneTimeId, decoded, rfl, .inl ?_⟩
    simp only [fate, holds.poker, Slot.poker, promoted, Fate.ofDisposition]
  | initiating pending oneTimeId =>
    obtain ⟨session, promoted⟩ := accepts
    refine ⟨rfl, packet, oneTimeId, decoded, rfl, .inr ?_⟩
    simp only [fate, holds.poker, holds.initiator, Slot.poker, Slot.initiator, promoted, Fate.ofDisposition]
  | _ => cases accepts

theorem run_formed (snow : Snow H S) (keypair : SnowKeypair) (id : SessionId) (history : List Access) :
    ∃ slot, Holds keypair id (after (Handler.access snow) (Handler.new keypair) history) slot ∧
      slot.Formed id (Granted snow keypair history id) ∧ slot.Idle := by
  induction history using List.reverseRecOn with
  | nil => exact ⟨.vacant, .new keypair id, trivial, trivial⟩
  | append_singleton history last ih =>
    obtain ⟨slot, holds, formed, idle⟩ := ih
    rw [after_append]
    cases concerned : last.concerns id with
    | false =>
      have apart : last.concerns id = true → last.info? = none := by simp [concerned]
      exact ⟨slot, access_unconcerned snow concerned holds, formed.imp fun _ granted => granted.later apart, idle⟩
    | true =>
      refine ⟨_, (access_concerned snow concerned holds).1, formed.step idle keypair last ?_ ?_ ?_⟩
      · intro unnamed address granted
        exact granted.later fun _ => unnamed
      · intro info connects address named
        apply Granted.now
        cases last with
        | operate operation =>
          cases operation with
          | handleIncoming => cases connects
          | _ => exact ⟨concerned, info, connects, named⟩
        | _ => exact ⟨concerned, info, connects, named⟩
      · rintro src data ephemeral packet rfl decoded accepts
        have same : packet.id = id := by simpa [Access.concerns, Access.id?, decoded] using concerned
        exact .now (holds.grants decoded same accepts)

end

theorem datagram_silent (snow : Snow H S) (handler : Handler H S) (src : SocketAddr) (data : Bytes) (ephemeral : Nat) :
    (handler.access snow (.operate (.handleIncoming src data ephemeral))).2.outgoing = [] := by
  simp only [Handler.access, handleIncoming]
  split <;> rfl

theorem access_silent (snow : Snow H S) (handler : Handler H S) {access : Access} (about : access.id? = none) :
    (handler.access snow access).2.outgoing = [] := by
  cases access with
  | operate operation =>
    cases operation with
    | handleIncoming src data ephemeral => exact handler.datagram_silent snow src data ephemeral
    | _ => cases about
  | _ => cases about

/-- Whatever a handler emits about a session goes to an address that was granted
to the session since it was last connected, and carries the session's id. -/
theorem destinations_granted (snow : Snow H S) (keypair : SnowKeypair) (history : List Access) (last : Access) :
    ∀ outgoing ∈ ((after (Handler.access snow) (Handler.new keypair) history).access snow last).2.outgoing,
      last.id? = some outgoing.2.1.id ∧ outgoing.2.2 = 64 ∧
        Granted snow keypair history outgoing.2.1.id outgoing.1 := by
  intro outgoing member
  cases about : last.id? with
  | none =>
    rw [access_silent snow _ about] at member
    cases member
  | some id =>
    obtain ⟨slot, holds, formed, idle⟩ := run_formed snow keypair id history
    have concerned : last.concerns id = true := by simp [Access.concerns, about]
    rw [(access_concerned snow concerned holds).2] at member
    obtain ⟨granted, same, ttl⟩ := formed.outgoing member
    subst same
    exact ⟨rfl, ttl, granted⟩

theorem response_granted :
    let history : List Access := [.operate (.respond 7 ⟨[.v4 3 3], [9]⟩ 40),
      .operate (.handleIncoming (.v4 1 1) (packetFor 7 (.handshakeInitiation [1])) 0)]
    ((after (Handler.access fixedSnow) (Handler.new ⟨[1], [2]⟩) history).access fixedSnow (.retransmit 7)).2.outgoing =
        [(.v4 1 1, ⟨7, RawMessage.codec.encode (.handshakeResponse [2])⟩, 64)] ∧
      Granted fixedSnow ⟨[1], [2]⟩ history 7 (.v4 1 1) := by
  refine ⟨by decide, ?_⟩
  exact (destinations_granted fixedSnow ⟨[1], [2]⟩ _ (.retransmit 7)
    (.v4 1 1, ⟨7, RawMessage.codec.encode (.handshakeResponse [2])⟩, 64) (by decide)).2.2

end Handler
end Veq
