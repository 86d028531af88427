import Veq.Handler
import Veq.Runs

/-! Two handlers and an attacker who is the network. Noise is symbolic: a handshake
state remembers whose keys it has and which messages passed, and a transport is
the transcript that it was made from. Which bytes are written, accepted and
opened is left to an oracle. -/

namespace Veq
open Rust Bincode

inductive Role where
  | initiator
  | responder
deriving DecidableEq, Repr

structure Handshake where
  role : Role
  own : Bytes
  peer : Bytes
  initiation : Option Bytes
  response : Option Bytes
deriving DecidableEq, Repr

structure Transport where
  role : Role
  own : Bytes
  peer : Bytes
  initiation : Bytes
  response : Bytes
deriving DecidableEq, Repr

namespace Transport

def transcript (transport : Transport) : Bytes × Bytes := (transport.initiation, transport.response)

/-- The other end of the same handshake. -/
def mirror (transport : Transport) : Transport :=
  { transport with
    role := match transport.role with | .initiator => .responder | .responder => .initiator
    own := transport.peer
    peer := transport.own }

end Transport

structure Oracle where
  writes : Handshake → Nat → Option Bytes
  accepts : Handshake → Bytes → Bool
  encrypts : Transport → Nat → Bytes → Nat → Option Bytes
  decrypts : Transport → Nat → Bytes → Nat → Option Bytes

namespace Handshake

def sent (state : Handshake) (message : Bytes) : Handshake :=
  match state.role with
  | .initiator => { state with initiation := some message }
  | .responder => { state with response := some message }

def received (state : Handshake) (message : Bytes) : Handshake :=
  match state.role with
  | .initiator => { state with response := some message }
  | .responder => { state with initiation := some message }

end Handshake

/-- The Noise pattern KKhfs: one message each way between keys known beforehand. -/
def noise (oracle : Oracle) : Snow Handshake Transport where
  writeMessage := oracle.encrypts
  readMessage := oracle.decrypts
  buildInitiator keypair remote := some ⟨.initiator, keypair.publicKey, remote, none, none⟩
  buildResponder keypair remote := some ⟨.responder, keypair.publicKey, remote, none, none⟩
  writeHandshake state ephemeral := (oracle.writes state ephemeral).map fun message => (state.sent message, message)
  readHandshake state message := if oracle.accepts state message then (state.received message, true) else (state, false)
  intoStatelessTransportMode state :=
    match state.initiation, state.response with
    | some initiation, some response => some ⟨state.role, state.own, state.peer, initiation, response⟩
    | _, _ => none

/-- What `handle_incoming` makes of a pending session. -/
inductive Promotion (S : Type) where
  | responding (pending : PendingSessionResponder S)
  | established (oneTimeId : OneTimeId) (session : Session S)

/-- The promotion that a packet causes, if it causes one. -/
def Handler.promotion {H S : Type} (snow : Snow H S) (handler : Handler H S) (src : SocketAddr) (packet : SessionPacket)
    (ephemeral : Nat) : Option (Promotion S) :=
  match handler.pendingSessionsPoker packet.id with
  | some entry =>
    match entry.session.advance snow src packet ephemeral with
    | .promote pending => some (.responding pending)
    | _ => none
  | none =>
    match handler.pendingSessionsInitiator packet.id with
    | some entry =>
      match entry.session.advance snow src packet with
      | .promote session => some (.established entry.oneTimeId session)
      | _ => none
    | none =>
      match handler.pendingSessionsResponder packet.id with
      | some entry =>
        match entry.session.advance snow.toCipher packet with
        | .promote session => some (.established entry.oneTimeId session)
        | _ => none
      | none => none

inductive Host where
  | first
  | second
deriving DecidableEq, Repr

def Host.other : Host → Host
  | .first => .second
  | .second => .first

/-- What has happened at a host. An initiation is sent, a responding session and
an established session are created under an id, a message is encrypted. -/
inductive Event where
  | initiated (host : Host) (id : SessionId) (initiation : Bytes)
  | responding (host : Host) (id : SessionId) (transport : Transport)
  | established (host : Host) (id : SessionId) (oneTimeId : OneTimeId) (transport : Transport)
  | encrypted (transport : Transport) (nonce : Nat) (plaintext ciphertext : Bytes)
deriving DecidableEq, Repr

namespace Event

/-- The handshake messages that an event has to do with. -/
def messages : Event → List Bytes
  | .initiated _ _ initiation => [initiation]
  | .responding _ _ transport => [transport.initiation, transport.response]
  | .established _ _ _ transport => [transport.initiation, transport.response]
  | .encrypted _ _ _ _ => []

end Event

/-- The two messages of a handshake. -/
inductive Leg where
  | initiation
  | response
deriving DecidableEq, Repr

namespace Leg

def carries : Leg → SessionPacket → Option Bytes
  | .initiation => SessionPacket.initiation
  | .response => SessionPacket.response

/-- The message that an event makes, with the id that it is made under. -/
def makes : Leg → Event → Option (SessionId × Bytes)
  | .initiation, .initiated _ id message => some (id, message)
  | .response, .responding _ id transport => some (id, transport.response)
  | _, _ => none

/-- The message that an event takes from a packet, with the id of the packet. -/
def takes : Leg → Event → Option (SessionId × Bytes)
  | .initiation, .responding _ id transport => some (id, transport.initiation)
  | .response, .established _ id _ transport => if transport.role = .initiator then some (id, transport.response) else none
  | _, _ => none

end Leg

/-- The latest event is the first of the history. -/
structure Network where
  handlers : Host → Handler Handshake Transport
  history : List Event

namespace Network

/-- A host's calls and ticks, or a session encrypting a message. -/
inductive Label where
  | operate (host : Host) (operation : Handler.Operation)
  | encrypt (transport : Transport) (nonce : Nat) (message : Message) (ciphertext : Bytes)
deriving DecidableEq

def start (keypairs : Host → SnowKeypair) : Network :=
  ⟨fun host => .new (keypairs host), []⟩

/-- The initiation that a call of `initiate` sends. -/
def initiation (oracle : Oracle) (network : Network) (host : Host) (info : ConnectionInfo) (ephemeral : Nat) : Option Bytes :=
  (SnowInitiator.new (noise oracle) (network.handlers host).keypair info.publicKey ephemeral).map SnowInitiator.initiation

def promoted (host : Host) (id : SessionId) : Promotion Transport → Event
  | .responding pending => .responding host id pending.transport.stateless
  | .established oneTimeId session => .established host id oneTimeId session.transport.stateless

/-- What an operation adds to the history. -/
def events (oracle : Oracle) (network : Network) (host : Host) : Handler.Operation → List Event
  | .initiate id info ephemeral _ => (network.initiation oracle host info ephemeral).toList.map (.initiated host id)
  | .handleIncoming src data ephemeral =>
    match SessionPacket.codec.deserialize data with
    | none => []
    | some packet =>
      ((network.handlers host).promotion (noise oracle) src packet ephemeral).toList.map (promoted host packet.id)
  | _ => []

def isEstablished (transport : Transport) : Event → Bool
  | .established _ _ _ other => other = transport
  | _ => false

/-- The attacker chooses what every host receives. A session that was established
may encrypt at any later time, also when it is no longer registered. -/
def step (oracle : Oracle) (network : Network) : Label → Network
  | .operate host operation =>
    ⟨Function.update network.handlers host ((network.handlers host).step (noise oracle) operation),
      network.events oracle host operation ++ network.history⟩
  | .encrypt transport nonce message ciphertext =>
    if network.history.any (isEstablished transport) then
      { network with history := .encrypted transport nonce (Message.codec.encode message) ciphertext :: network.history }
    else network

def run (oracle : Oracle) (network : Network) (labels : List Label) : Network := labels.foldl (step oracle) network

/-- A handshake message that nothing before it contains. -/
def Fresh (history : List Event) (message : Bytes) : Prop := ∀ event ∈ history, message ∉ event.messages

instance (history : List Event) (message : Bytes) : Decidable (Fresh history message) :=
  inferInstanceAs (Decidable (∀ event ∈ history, _))

/-- The owner of the peer's key has made this response for this initiation. -/
def Answers (network : Network) (state : Handshake) (response : Bytes) : Event → Prop
  | .responding host _ transport => (network.handlers host).keypair.publicKey = state.peer ∧
      state.initiation = some transport.initiation ∧ response = transport.response
  | _ => False

instance (network : Network) (state : Handshake) (response : Bytes) :
    (event : Event) → Decidable (network.Answers state response event)
  | .responding _ _ _ => inferInstanceAs (Decidable (_ ∧ _))
  | .initiated _ _ _ | .established _ _ _ _ | .encrypted _ _ _ _ => inferInstanceAs (Decidable False)

def FreshPromotion (history : List Event) : Promotion Transport → Prop
  | .responding pending => Fresh history pending.transport.stateless.response
  | .established _ _ => True

instance (history : List Event) : (promotion : Promotion Transport) → Decidable (FreshPromotion history promotion)
  | .responding _ => inferInstanceAs (Decidable (Fresh _ _))
  | .established _ _ => inferInstanceAs (Decidable True)

/-- What is assumed of Noise when a packet is handled: a response that is written
is new; one is accepted only if the peer has made it for the same initiation; a
ciphertext opens only if the other end of the transport has written it. -/
structure IdealPacket (oracle : Oracle) (network : Network) (host : Host) (src : SocketAddr) (packet : SessionPacket)
    (ephemeral : Nat) : Prop where
  fresh : ∀ promotion ∈ (network.handlers host).promotion (noise oracle) src packet ephemeral,
    FreshPromotion network.history promotion
  answered : ∀ entry ∈ (network.handlers host).pendingSessionsInitiator packet.id, ∀ response ∈ packet.response,
    oracle.accepts entry.session.initiator.state response = true →
      ∃ event ∈ network.history, network.Answers entry.session.initiator.state response event
  authentic : ∀ entry ∈ (network.handlers host).pendingSessionsResponder packet.id, ∀ encrypted ∈ packet.encrypted,
    ∀ nonced ∈ Nonced.codec.deserialize encrypted,
      ∀ plaintext ∈ oracle.decrypts entry.session.transport.stateless nonced.nonce nonced.payload 65535,
        Event.encrypted entry.session.transport.stateless.mirror nonced.nonce plaintext nonced.payload ∈ network.history

instance (oracle : Oracle) (network : Network) (host : Host) (src : SocketAddr) (packet : SessionPacket)
    (ephemeral : Nat) : Decidable (IdealPacket oracle network host src packet ephemeral) :=
  decidable_of_iff (_ ∧ _ ∧ _) ⟨fun assumed => ⟨assumed.1, assumed.2.1, assumed.2.2⟩,
    fun ideal => ⟨ideal.fresh, ideal.answered, ideal.authentic⟩⟩

def Ideal (oracle : Oracle) (network : Network) : Label → Prop
  | .operate host (.initiate _ info ephemeral _) =>
    ∀ message ∈ network.initiation oracle host info ephemeral, Fresh network.history message
  | .operate host (.handleIncoming src data ephemeral) => ∀ packet ∈ SessionPacket.codec.deserialize data,
      IdealPacket oracle network host src packet ephemeral
  | _ => True

instance (oracle : Oracle) (network : Network) : (label : Label) → Decidable (network.Ideal oracle label)
  | .operate _ (.initiate _ _ _ _) => inferInstanceAs (Decidable (∀ message ∈ _, _))
  | .operate _ (.handleIncoming _ _ _) => inferInstanceAs (Decidable (∀ packet ∈ _, _))
  | .operate _ (.respond _ _ _) | .operate _ (.send _ _) | .operate _ (.recvFrom _) | .operate _ (.closeSession _ _)
  | .operate _ (.keepalive _) | .operate _ (.checkHeartbeat _) | .encrypt _ _ _ _ => inferInstanceAs (Decidable True)

/-- Each of the two hosts connects to the other. -/
def Paired (network : Network) : Label → Prop
  | .operate host (.initiate _ info _ _) => info.publicKey = (network.handlers host.other).keypair.publicKey
  | .operate host (.respond _ info _) => info.publicKey = (network.handlers host.other).keypair.publicKey
  | _ => True

instance (network : Network) : (label : Label) → Decidable (network.Paired label)
  | .operate _ (.initiate _ _ _ _) => inferInstanceAs (Decidable (_ = _))
  | .operate _ (.respond _ _ _) => inferInstanceAs (Decidable (_ = _))
  | .operate _ (.handleIncoming _ _ _) | .operate _ (.send _ _) | .operate _ (.recvFrom _) | .operate _ (.closeSession _ _)
  | .operate _ (.keepalive _) | .operate _ (.checkHeartbeat _) | .encrypt _ _ _ _ => inferInstanceAs (Decidable True)

def Admissible (oracle : Oracle) (network : Network) (label : Label) : Prop :=
  network.Paired label ∧ network.Ideal oracle label

instance (oracle : Oracle) (network : Network) (label : Label) : Decidable (network.Admissible oracle label) :=
  inferInstanceAs (Decidable (_ ∧ _))

/-- The attacker leaves the ids of the packets with this message alone: each of them
arrives under the id that the message was made under. -/
def KeepsId (leg : Leg) (message : Bytes) (network : Network) : Label → Prop
  | .operate _ (.handleIncoming _ data _) => ∀ packet ∈ SessionPacket.codec.deserialize data,
      leg.carries packet = some message →
        ∀ event ∈ network.history, ∀ made ∈ leg.makes event, made.2 = message → packet.id = made.1
  | _ => True

instance (leg : Leg) (message : Bytes) (network : Network) :
    (label : Label) → Decidable (network.KeepsId leg message label)
  | .operate _ (.handleIncoming _ _ _) =>
    inferInstanceAs (Decidable (∀ packet ∈ _, _ → ∀ event ∈ _, ∀ made ∈ _, _ → _))
  | .operate _ (.initiate _ _ _ _) | .operate _ (.respond _ _ _) | .operate _ (.send _ _) | .operate _ (.recvFrom _)
  | .operate _ (.closeSession _ _) | .operate _ (.keepalive _) | .operate _ (.checkHeartbeat _)
  | .encrypt _ _ _ _ => inferInstanceAs (Decidable True)

abbrev Meets (condition : Network → Label → Prop) (oracle : Oracle) (network : Network) (labels : List Label) : Prop :=
  Runs.Meets (fun network label => some (network.step oracle label)) condition network labels

theorem run_some (oracle : Oracle) (network : Network) (labels : List Label) :
    Runs.run (fun network label => some (network.step oracle label)) network labels = some (network.run oracle labels) := by
  induction labels generalizing network with
  | nil => rfl
  | cons label labels ih => exact ih (network.step oracle label)

end Network
end Veq
