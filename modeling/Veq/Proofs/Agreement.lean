import Veq.Proofs.Promotion
import Veq.Proofs.Survival

/-! Both ends of a handshake agree on what they have established. A history in
which every event is permitted by the events before it has the agreement that is
wanted; the handlers, the attacker and Noise together only make such histories. -/

namespace Veq
open Rust Bincode

namespace Transport

theorem mirror_mirror (transport : Transport) : transport.mirror.mirror = transport := by
  obtain ⟨role, own, peer, initiation, response⟩ := transport
  cases role with
  | initiator => rfl
  | responder => rfl

theorem mirror_injective {first second : Transport} (same : first.mirror = second.mirror) : first = second := by
  rw [← first.mirror_mirror, same, second.mirror_mirror]

end Transport

theorem Host.other_other (host : Host) : host.other.other = host := by
  cases host with
  | first => rfl
  | second => rfl

theorem Host.other_ne (host : Host) : host.other ≠ host := by
  cases host with
  | first => exact Host.noConfusion
  | second => exact Host.noConfusion

def Event.produces : Event → Option Bytes
  | .initiated _ _ initiation => some initiation
  | .responding _ _ transport => some transport.response
  | _ => none

theorem Event.produces_messages {event : Event} {message : Bytes} (produced : event.produces = some message) :
    message ∈ event.messages := by
  cases event with
  | initiated host id initiation => simp_all [produces, messages]
  | responding host id transport => simp_all [produces, messages]
  | established host id oneTimeId transport => cases produced
  | encrypted transport nonce plaintext ciphertext => cases produced

namespace Leg

variable {leg : Leg} {event : Event} {id : SessionId} {message : Bytes}

theorem makes_produces (made : leg.makes event = some (id, message)) : event.produces = some message := by
  unfold makes at made
  split at made <;> cases made <;> rfl

theorem takes_messages (taken : leg.takes event = some (id, message)) : message ∈ event.messages := by
  unfold takes at taken
  split at taken
  · cases taken
    simp [Event.messages]
  · split at taken
    · cases taken
      simp [Event.messages]
    · cases taken
  · cases taken

theorem takes_makes (taken : leg.takes event = some (id, message)) : leg.makes event = none := by
  cases leg with
  | initiation => cases event <;> first | rfl | cases taken
  | response => cases event <;> first | rfl | cases taken

end Leg

namespace Network

def establishedAs (role : Role) (history : List Event) : List Transport :=
  history.filterMap fun event =>
    match event with
    | .established _ _ _ transport => if transport.role = role then some transport else none
    | _ => none

theorem mem_establishedAs {role : Role} {history : List Event} {transport : Transport} :
    transport ∈ establishedAs role history ↔
      transport.role = role ∧ ∃ host id oneTimeId, .established host id oneTimeId transport ∈ history := by
  unfold establishedAs
  rw [List.mem_filterMap]
  refine ⟨?_, ?_⟩
  · rintro ⟨event, member, chosen⟩
    cases event with
    | established host id oneTimeId other =>
      simp only [Option.ite_none_right_eq_some, Option.some.injEq] at chosen
      obtain ⟨role, rfl⟩ := chosen
      exact ⟨role, host, id, oneTimeId, member⟩
    | initiated host id initiation => cases chosen
    | responding host id other => cases chosen
    | encrypted other nonce plaintext ciphertext => cases chosen
  · rintro ⟨role, host, id, oneTimeId, member⟩
    exact ⟨_, member, by simp [role]⟩

/-- The transport is made with the keys of this host and of the other one. -/
def Belongs (keys : Host → Bytes) (host : Host) (transport : Transport) : Prop :=
  transport.own = keys host ∧ transport.peer = keys host.other

/-- What has to have happened before a session is established. -/
structure Confirmed (host : Host) (id : SessionId) (transport : Transport) (past : List Event) : Prop where
  initiator : transport.role = .initiator →
    .initiated host id transport.initiation ∈ past ∧ (∃ peerId, .responding host.other peerId transport.mirror ∈ past) ∧
      ∀ earlier ∈ establishedAs .initiator past, earlier.initiation ≠ transport.initiation
  responder : transport.role = .responder →
    .responding host id transport ∈ past ∧
      (∃ peerId oneTimeId, .established host.other peerId oneTimeId transport.mirror ∈ past) ∧
      transport ∉ establishedAs .responder past

def Permitted (keys : Host → Bytes) (past : List Event) : Event → Prop
  | .initiated _ _ initiation => Fresh past initiation
  | .responding host _ transport => transport.role = .responder ∧ Belongs keys host transport ∧ Fresh past transport.response
  | .established host id _ transport => Belongs keys host transport ∧ Confirmed host id transport past
  | .encrypted transport _ _ _ => ∃ host id oneTimeId, .established host id oneTimeId transport ∈ past

/-- Every event of the history is permitted by those before it. -/
def Valid (keys : Host → Bytes) : List Event → Prop
  | [] => True
  | event :: past => Permitted keys past event ∧ Valid keys past

namespace Valid

variable {keys : Host → Bytes} {history past later : List Event}

theorem permitted {event : Event} (valid : Valid keys (later ++ event :: past)) : Permitted keys past event := by
  induction later with
  | nil => exact valid.1
  | cons latest later ih => exact ih valid.2

theorem member {event : Event} (valid : Valid keys history) (present : event ∈ history) :
    ∃ past, past ⊆ history ∧ Permitted keys past event := by
  obtain ⟨later, past, rfl⟩ := List.append_of_mem present
  exact ⟨past, fun earlier member => by simp [member], valid.permitted⟩

theorem fresh {event : Event} {message : Bytes} (permitted : Permitted keys past event)
    (produced : event.produces = some message) : Fresh past message := by
  cases event with
  | initiated host id initiation =>
    cases produced
    exact permitted
  | responding host id transport =>
    cases produced
    exact permitted.2.2
  | established host id oneTimeId transport => cases produced
  | encrypted transport nonce plaintext ciphertext => cases produced

theorem produced_once {event other : Event} {message : Bytes} (valid : Valid keys history) (first : event ∈ history)
    (second : other ∈ history) (produced : event.produces = some message) (again : other.produces = some message) :
    event = other := by
  induction history with
  | nil => cases first
  | cons latest past ih =>
    rcases List.mem_cons.mp first with rfl | earlier
    · rcases List.mem_cons.mp second with rfl | otherEarlier
      · rfl
      · exact absurd (Event.produces_messages again) (fresh valid.1 produced other otherEarlier)
    · rcases List.mem_cons.mp second with rfl | otherEarlier
      · exact absurd (Event.produces_messages produced) (fresh valid.1 again event earlier)
      · exact ih valid.2 earlier otherEarlier

theorem belongs {host : Host} {id : SessionId} {oneTimeId : OneTimeId} {transport : Transport} (valid : Valid keys history)
    (present : .established host id oneTimeId transport ∈ history) : Belongs keys host transport := by
  obtain ⟨past, -, permitted⟩ := valid.member present
  exact permitted.1

private theorem once {role : Role} (valid : Valid keys history)
    (new : ∀ host id oneTimeId transport past, Valid keys past → transport.role = role →
      Permitted keys past (.established host id oneTimeId transport) →
        ∀ earlier ∈ establishedAs role past, earlier.initiation ≠ transport.initiation) :
    ((establishedAs role history).map Transport.initiation).Nodup := by
  induction history with
  | nil => exact List.nodup_nil
  | cons event past ih =>
    have rest := ih valid.2
    cases event with
    | initiated host id initiation => exact rest
    | responding host id transport => exact rest
    | encrypted transport nonce plaintext ciphertext => exact rest
    | established host id oneTimeId transport =>
      by_cases same : transport.role = role
      · have different := new host id oneTimeId transport past valid.2 same valid.1
        have added : establishedAs role (.established host id oneTimeId transport :: past) =
            transport :: establishedAs role past := by
          simp [establishedAs, same]
        rw [added, List.map_cons, List.nodup_cons]
        refine ⟨?_, rest⟩
        rw [List.mem_map]
        rintro ⟨earlier, member, equal⟩
        exact different earlier member equal
      · have unchanged : establishedAs role (.established host id oneTimeId transport :: past) = establishedAs role past := by
          simp [establishedAs, same]
        rw [unchanged]
        exact rest

theorem initiators_once (valid : Valid keys history) :
    ((establishedAs .initiator history).map Transport.initiation).Nodup :=
  once valid fun _ _ _ _ _ _ role permitted => (permitted.2.initiator role).2.2

theorem responders_once (valid : Valid keys history) :
    ((establishedAs .responder history).map Transport.initiation).Nodup := by
  apply once valid
  intro host id oneTimeId transport past valid role permitted earlier member equal
  obtain ⟨-, ⟨peerId, peerOneTimeId, confirmed⟩, first⟩ := permitted.2.responder role
  obtain ⟨earlierRole, earlierHost, earlierId, earlierOneTimeId, present⟩ := mem_establishedAs.mp member
  obtain ⟨before, subset, earlierPermitted⟩ := valid.member present
  obtain ⟨-, ⟨earlierPeerId, earlierPeerOneTimeId, earlierConfirmed⟩, -⟩ := earlierPermitted.2.responder earlierRole
  have mirrored : transport.mirror ∈ establishedAs .initiator past :=
    mem_establishedAs.mpr ⟨by simp [Transport.mirror, role], _, _, _, confirmed⟩
  have earlierMirrored : earlier.mirror ∈ establishedAs .initiator past :=
    mem_establishedAs.mpr ⟨by simp [Transport.mirror, earlierRole], _, _, _, subset earlierConfirmed⟩
  have same : earlier.mirror = transport.mirror :=
    List.inj_on_of_nodup_map valid.initiators_once earlierMirrored mirrored equal
  exact first (Transport.mirror_injective same ▸ member)

end Valid

/-- What the history knows about the entries of a handler. -/
structure Grounded (keys : Host → Bytes) (host : Host) (history : List Event) (handler : Handler Handshake Transport) :
    Prop where
  keypair : handler.keypair.publicKey = keys host
  pokers : ∀ id entry, handler.pendingSessionsPoker id = some entry →
    entry.session.snowResponder.state = ⟨.responder, keys host, keys host.other, none, none⟩
  initiators : ∀ id entry, handler.pendingSessionsInitiator id = some entry →
    ∃ initiation, entry.session.initiator.state = ⟨.initiator, keys host, keys host.other, some initiation, none⟩ ∧
      .initiated host id initiation ∈ history ∧
      ∀ transport ∈ establishedAs .initiator history, transport.initiation ≠ initiation
  responders : ∀ id entry, handler.pendingSessionsResponder id = some entry →
    entry.session.ready = false ∧ .responding host id entry.session.transport.stateless ∈ history ∧
      entry.session.transport.stateless ∉ establishedAs .responder history
  established : ∀ id oneTimeId session, handler.establishedSessions id = some (oneTimeId, session) →
    .established host id oneTimeId session.transport.stateless ∈ history

namespace Grounded

variable {keys : Host → Bytes} {host : Host} {history : List Event} {handler next : Handler Handshake Transport}

theorem new {keypair : SnowKeypair} (own : keypair.publicKey = keys host) : Grounded keys host [] (.new keypair) :=
  ⟨own, by simp [Handler.new], by simp [Handler.new], by simp [Handler.new], by simp [Handler.new]⟩

theorem within (grounded : Grounded keys host history handler) (within : handler.Within next) :
    Grounded keys host history next := by
  refine ⟨within.keypair ▸ grounded.keypair, ?_, ?_, ?_, ?_⟩
  · intro id entry found
    obtain ⟨old, present, same⟩ := within.pokers id entry found
    rw [same]
    exact grounded.pokers id old present
  · intro id entry found
    obtain ⟨old, present, same⟩ := within.initiators id entry found
    rw [same]
    exact grounded.initiators id old present
  · intro id entry found
    obtain ⟨old, present, same, waiting⟩ := within.responders id entry found
    obtain ⟨unready, known⟩ := grounded.responders id old present
    rw [same]
    exact ⟨waiting unready, known⟩
  · intro id oneTimeId session found
    obtain ⟨old, present, same⟩ := within.established id oneTimeId session found
    rw [same]
    exact grounded.established id oneTimeId old present

theorem sameMaps (grounded : Grounded keys host history handler) (same : handler.SameMaps next) :
    Grounded keys host history next :=
  grounded.within (.fewer same.keypair (fun _ => .inr (by rw [same.poker])) (fun _ => .inr (by rw [same.initiator]))
    (fun _ => .inr (by rw [same.responder])) (fun _ => .inr (by rw [same.established])))

theorem cons {event : Event} (grounded : Grounded keys host history handler) (valid : Valid keys (event :: history))
    (moved : ∀ id oneTimeId transport, event = .established host id oneTimeId transport →
      (transport.role = .initiator → handler.pendingSessionsInitiator id = none) ∧
      (transport.role = .responder → handler.pendingSessionsResponder id = none)) :
    Grounded keys host (event :: history) handler := by
  have later : ∀ {earlier : Event}, earlier ∈ history → earlier ∈ event :: history := List.mem_cons_of_mem event
  refine ⟨grounded.keypair, grounded.pokers, ?_, ?_, ?_⟩
  · intro id entry found
    obtain ⟨initiation, state, made, unused⟩ := grounded.initiators id entry found
    refine ⟨initiation, state, later made, ?_⟩
    intro transport member equal
    obtain ⟨role, other, otherId, oneTimeId, present⟩ := mem_establishedAs.mp member
    rcases List.mem_cons.mp present with rfl | earlier
    · obtain ⟨otherMade, -⟩ := valid.1.2.initiator role
      cases valid.2.produced_once made otherMade rfl (congrArg some equal)
      have none := (moved id oneTimeId transport rfl).1 role
      rw [found] at none
      cases none
    · exact unused transport (mem_establishedAs.mpr ⟨role, other, otherId, oneTimeId, earlier⟩) equal
  · intro id entry found
    obtain ⟨waiting, made, unused⟩ := grounded.responders id entry found
    refine ⟨waiting, later made, ?_⟩
    intro member
    obtain ⟨role, other, otherId, oneTimeId, present⟩ := mem_establishedAs.mp member
    rcases List.mem_cons.mp present with rfl | earlier
    · obtain ⟨otherMade, -⟩ := valid.1.2.responder role
      cases valid.2.produced_once made otherMade rfl rfl
      have none := (moved id oneTimeId _ rfl).2 role
      rw [found] at none
      cases none
    · exact unused (mem_establishedAs.mpr ⟨role, other, otherId, oneTimeId, earlier⟩)
  · intro id oneTimeId session found
    exact later (grounded.established id oneTimeId session found)

theorem append {events : List Event} (grounded : Grounded keys host history handler) (valid : Valid keys (events ++ history))
    (elsewhere : ∀ id oneTimeId transport, .established host id oneTimeId transport ∉ events) :
    Grounded keys host (events ++ history) handler := by
  induction events with
  | nil => exact grounded
  | cons event events ih =>
    have rest := ih valid.2 fun id oneTimeId transport member =>
      elsewhere id oneTimeId transport (List.mem_cons_of_mem event member)
    refine rest.cons valid ?_
    rintro id oneTimeId transport rfl
    exact absurd (List.mem_cons_self ..) (elsewhere id oneTimeId transport)

theorem putPoker (grounded : Grounded keys host history handler) {id : SessionId}
    {entry : Pending (PendingSessionPoker Handshake)}
    (state : entry.session.snowResponder.state = ⟨.responder, keys host, keys host.other, none, none⟩) :
    Grounded keys host history (handler.putPoker id entry) := by
  refine { grounded with pokers := ?_ }
  intro other found registered
  rcases HashMap.insert_some registered with ⟨rfl, rfl⟩ | ⟨-, present⟩
  · exact state
  · exact grounded.pokers other found present

theorem putInitiator (grounded : Grounded keys host history handler) {id : SessionId}
    {entry : Pending (PendingSessionInitiator Handshake)} {initiation : Bytes}
    (state : entry.session.initiator.state = ⟨.initiator, keys host, keys host.other, some initiation, none⟩)
    (made : .initiated host id initiation ∈ history)
    (unused : ∀ transport ∈ establishedAs .initiator history, transport.initiation ≠ initiation) :
    Grounded keys host history (handler.putInitiator id entry) := by
  refine { grounded with initiators := ?_ }
  intro other found registered
  rcases HashMap.insert_some registered with ⟨rfl, rfl⟩ | ⟨-, present⟩
  · exact ⟨initiation, state, made, unused⟩
  · exact grounded.initiators other found present

theorem putResponder (grounded : Grounded keys host history handler) {id : SessionId}
    {entry : Pending (PendingSessionResponder Transport)} (waiting : entry.session.ready = false)
    (made : .responding host id entry.session.transport.stateless ∈ history)
    (unused : entry.session.transport.stateless ∉ establishedAs .responder history) :
    Grounded keys host history (handler.putResponder id entry) := by
  refine { grounded with responders := ?_ }
  intro other found registered
  rcases HashMap.insert_some registered with ⟨rfl, rfl⟩ | ⟨-, present⟩
  · exact ⟨waiting, made, unused⟩
  · exact grounded.responders other found present

theorem putEstablished (grounded : Grounded keys host history handler) {id : SessionId} {oneTimeId : OneTimeId}
    {session : Session Transport} (made : .established host id oneTimeId session.transport.stateless ∈ history) :
    Grounded keys host history (handler.putEstablished id (oneTimeId, session)) := by
  refine { grounded with established := ?_ }
  intro other otherOneTimeId found registered
  rcases HashMap.insert_some registered with ⟨rfl, put⟩ | ⟨-, present⟩
  · cases put
    exact made
  · exact grounded.established other otherOneTimeId found present

theorem respond (grounded : Grounded keys host history handler) (valid : Valid keys history) {id : SessionId}
    {pending : PendingSessionResponder Transport} {oneTimeId : OneTimeId} (waiting : pending.ready = false)
    (role : pending.transport.stateless.role = .responder) (belongs : Belongs keys host pending.transport.stateless)
    (fresh : Fresh history pending.transport.stateless.response) :
    Valid keys (.responding host id pending.transport.stateless :: history) ∧
      Grounded keys host (.responding host id pending.transport.stateless :: history)
        (handler.putResponder id ⟨pending, oneTimeId⟩) := by
  have extended : Valid keys (.responding host id pending.transport.stateless :: history) :=
    ⟨⟨role, belongs, fresh⟩, valid⟩
  refine ⟨extended, (grounded.cons extended ?_).putResponder waiting (List.mem_cons_self ..) ?_⟩
  · intro other oneTimeId transport equal
    cases equal
  · intro member
    obtain ⟨-, other, otherId, oneTimeId, present⟩ := mem_establishedAs.mp member
    rcases List.mem_cons.mp present with equal | earlier
    · cases equal
    · exact fresh _ earlier (by simp [Event.messages])

theorem establish (grounded : Grounded keys host history handler) (valid : Valid keys history) {id : SessionId}
    {oneTimeId : OneTimeId} {session : Session Transport} (belongs : Belongs keys host session.transport.stateless)
    (confirmed : Confirmed host id session.transport.stateless history)
    (noInitiator : session.transport.stateless.role = .initiator → handler.pendingSessionsInitiator id = none)
    (noResponder : session.transport.stateless.role = .responder → handler.pendingSessionsResponder id = none)
    (maps : Handler.SameMaps (handler.putEstablished id (oneTimeId, session)) next) :
    Valid keys (.established host id oneTimeId session.transport.stateless :: history) ∧
      Grounded keys host (.established host id oneTimeId session.transport.stateless :: history) next := by
  have extended : Valid keys (.established host id oneTimeId session.transport.stateless :: history) :=
    ⟨⟨belongs, confirmed⟩, valid⟩
  refine ⟨extended, ((grounded.cons extended ?_).putEstablished (List.mem_cons_self ..)).sameMaps maps⟩
  intro other otherOneTimeId transport equal
  cases equal
  exact ⟨noInitiator, noResponder⟩

end Grounded

theorem Valid.answer {keys : Host → Bytes} {network : Network} (valid : Valid keys network.history)
    (distinct : Function.Injective keys) (keypair : ∀ peer, (network.handlers peer).keypair.publicKey = keys peer)
    {host : Host} {initiation response : Bytes} {event : Event} (present : event ∈ network.history)
    (answers : network.Answers ⟨.initiator, keys host, keys host.other, some initiation, none⟩ response event) :
    ∃ peerId, .responding host.other peerId
      (Transport.mk .initiator (keys host) (keys host.other) initiation response).mirror ∈ network.history := by
  cases event with
  | responding peer peerId transport =>
    obtain ⟨own, sameInitiation, sameResponse⟩ := answers
    obtain rfl : peer = host.other := distinct (by rw [← keypair, own])
    obtain ⟨past, -, role, belongs, -⟩ := valid.member present
    have mirrored : transport = (Transport.mk .initiator (keys host) (keys host.other) initiation response).mirror := by
      obtain ⟨transportRole, transportOwn, transportPeer, transportInitiation, transportResponse⟩ := transport
      obtain ⟨ownKey, peerKey⟩ := belongs
      simp_all [Transport.mirror, Host.other_other]
    exact ⟨peerId, mirrored ▸ present⟩
  | initiated peer peerId other => cases answers
  | established peer peerId oneTimeId transport => cases answers
  | encrypted transport nonce plaintext ciphertext => cases answers

/-- The other end of a transport has encrypted only if it was established. -/
theorem Valid.written {keys : Host → Bytes} {history : List Event} (valid : Valid keys history)
    (distinct : Function.Injective keys) {host : Host} {transport : Transport} {nonce : Nat} {plaintext ciphertext : Bytes}
    (belongs : Belongs keys host transport) (present : .encrypted transport.mirror nonce plaintext ciphertext ∈ history) :
    ∃ peerId oneTimeId, .established host.other peerId oneTimeId transport.mirror ∈ history := by
  obtain ⟨past, subset, peer, peerId, oneTimeId, earlier⟩ := valid.member present
  have peerBelongs := valid.belongs (subset earlier)
  obtain rfl : peer = host.other := distinct (peerBelongs.1.symm.trans belongs.2)
  exact ⟨peerId, oneTimeId, subset earlier⟩

/-- What holds of two hosts and the history that they have made. -/
structure Sound (keys : Host → Bytes) (network : Network) : Prop where
  valid : Valid keys network.history
  grounded : ∀ host, Grounded keys host network.history (network.handlers host)
  consistent : ∀ host, (network.handlers host).Consistent

namespace Sound

variable {keys : Host → Bytes} {network : Network} {oracle : Oracle} {host : Host}

theorem start {keypairs : Host → SnowKeypair} : Sound (fun host => (keypairs host).publicKey) (start keypairs) :=
  ⟨trivial, fun _ => .new rfl, fun host => .new (keypairs host)⟩

theorem outcome (oracle : Oracle) (sound : Sound keys network) (host : Host) (src : SocketAddr) (packet : SessionPacket) (ephemeral : Nat) :
    Handler.Outcome oracle (network.handlers host) packet
      ((network.handlers host).promotion (noise oracle) src packet ephemeral)
      ((network.handlers host).handlePacket (noise oracle) src packet ephemeral) :=
  Handler.handlePacket_outcome (sound.consistent host)
    (fun id entry found => ((sound.grounded host).responders id entry found).1) src ephemeral

/-- What is assumed of Noise makes the events of a packet permitted. -/
theorem handlePacket (sound : Sound keys network) (distinct : Function.Injective keys) {src : SocketAddr}
    {packet : SessionPacket} {ephemeral : Nat} (ideal : IdealPacket oracle network host src packet ephemeral) :
    let history := ((network.handlers host).promotion (noise oracle) src packet ephemeral).toList.map
      (promoted host packet.id) ++ network.history
    Valid keys history ∧
      Grounded keys host history ((network.handlers host).handlePacket (noise oracle) src packet ephemeral) := by
  obtain ⟨fresh, answered, authentic⟩ := ideal
  have grounded := sound.grounded host
  have outcome := sound.outcome oracle host src packet ephemeral
  revert fresh outcome
  generalize (network.handlers host).promotion (noise oracle) src packet ephemeral = promotion
  generalize (network.handlers host).handlePacket (noise oracle) src packet ephemeral = next
  intro fresh outcome
  cases outcome with
  | kept within => exact ⟨sound.valid, grounded.within within⟩
  | @responding entry pending initiation response found carried waiting finished =>
    have transport : pending.transport.stateless = ⟨.responder, keys host, keys host.other, initiation, response⟩ := by
      rw [grounded.pokers _ _ found] at finished
      exact (Option.some.inj finished).symm
    exact (grounded.within (.takePoker _ packet.id)).respond sound.valid waiting (by rw [transport])
      (by rw [transport]; exact ⟨rfl, rfl⟩) (fresh _ rfl)
  | @initiator entry session response next found carried accepted finished maps =>
    obtain ⟨initiation, state, made, unused⟩ := grounded.initiators _ _ found
    have transport : session.transport.stateless = ⟨.initiator, keys host, keys host.other, initiation, response⟩ := by
      rw [state] at finished
      exact (Option.some.inj finished).symm
    obtain ⟨event, present, answers⟩ := answered entry found response carried accepted
    rw [state] at answers
    have peer := sound.valid.answer distinct (fun peer => (sound.grounded peer).keypair) present answers
    refine (grounded.within (.takeInitiator _ packet.id)).establish sound.valid ?_ ?_ ?_ ?_ maps
    · rw [transport]
      exact ⟨rfl, rfl⟩
    · rw [transport]
      exact ⟨fun _ => ⟨made, peer, unused⟩, fun role => by cases role⟩
    · simp [Handler.takeInitiator]
    · rw [transport]
      intro role
      cases role
  | @responder entry session next found transport opened maps =>
    obtain ⟨waiting, made, unused⟩ := grounded.responders _ _ found
    obtain ⟨past, -, role, belongs, -⟩ := sound.valid.member made
    obtain ⟨encrypted, carried, nonced, form, plaintext, decrypted⟩ := opened
    have written := authentic entry found encrypted carried nonced form plaintext decrypted
    have peer := sound.valid.written distinct belongs written
    refine (grounded.within (.takeResponder _ packet.id)).establish sound.valid ?_ ?_ ?_ ?_ maps
    · rw [transport]
      exact belongs
    · rw [transport]
      exact ⟨fun other => absurd (role.symm.trans other) (by decide), fun _ => ⟨made, peer, unused⟩⟩
    · rw [transport, role]
      intro other
      cases other
    · simp [Handler.takeResponder]

theorem initiate (sound : Sound keys network) {id : SessionId} {info : ConnectionInfo} {ephemeral : Nat}
    {oneTimeId : OneTimeId} (remote : info.publicKey = keys host.other)
    (fresh : ∀ message ∈ network.initiation oracle host info ephemeral, Fresh network.history message) :
    let history := (network.initiation oracle host info ephemeral).toList.map (.initiated host id) ++ network.history
    Valid keys history ∧
      Grounded keys host history ((network.handlers host).initiate (noise oracle) id info ephemeral oneTimeId).1 := by
  have grounded := sound.grounded host
  unfold Network.initiation at fresh ⊢
  rcases (network.handlers host).initiate_cases oracle id info ephemeral oneTimeId with
    ⟨failed, within⟩ | ⟨initiator, built, maps⟩
  · rw [failed]
    exact ⟨sound.valid, grounded.within within⟩
  · rw [built] at fresh ⊢
    have new : Fresh network.history initiator.initiation := fresh _ rfl
    have extended : Valid keys (.initiated host id initiator.initiation :: network.history) := ⟨new, sound.valid⟩
    have removed := (grounded.within (.removeSession _ id none)).cons extended (by intro _ _ _ equal; cases equal)
    have state : initiator.state =
        ⟨.initiator, keys host, keys host.other, some initiator.initiation, none⟩ := by
      rw [SnowInitiator.new_noise built, grounded.keypair, remote]
    refine ⟨extended, (removed.putInitiator state (List.mem_cons_self ..) ?_).sameMaps maps⟩
    intro transport member equal
    obtain ⟨-, other, otherId, otherOneTimeId, present⟩ := mem_establishedAs.mp member
    rcases List.mem_cons.mp present with equal | earlier
    · cases equal
    · exact new _ earlier (by simp [Event.messages, equal])

theorem respond (sound : Sound keys network) {id : SessionId} {info : ConnectionInfo} {oneTimeId : OneTimeId}
    (remote : info.publicKey = keys host.other) :
    Grounded keys host network.history ((network.handlers host).respond (noise oracle) id info oneTimeId).1 := by
  have grounded := sound.grounded host
  refine ((grounded.within (.removeSession _ id none)).putPoker ?_).sameMaps (Handler.respond_maps oracle _ id info oneTimeId)
  simp [PendingSessionPoker.new, grounded.keypair, remote]

theorem operate (sound : Sound keys network) (distinct : Function.Injective keys) {operation : Handler.Operation}
    (admissible : network.Admissible oracle (.operate host operation)) :
    Valid keys (network.events oracle host operation ++ network.history) ∧
      Grounded keys host (network.events oracle host operation ++ network.history)
        ((network.handlers host).step (noise oracle) operation) := by
  have grounded := sound.grounded host
  obtain ⟨paired, ideal⟩ := admissible
  cases operation with
  | initiate id info ephemeral oneTimeId => exact sound.initiate (paired.trans (sound.grounded _).keypair) ideal
  | respond id info oneTimeId => exact ⟨sound.valid, sound.respond (paired.trans (sound.grounded _).keypair)⟩
  | handleIncoming src data ephemeral =>
    simp only [events, Handler.step, Handler.handleIncoming]
    cases decoded : SessionPacket.codec.deserialize data with
    | none => exact ⟨sound.valid, grounded⟩
    | some packet => exact sound.handlePacket distinct (ideal packet decoded)
  | send id data =>
    refine ⟨sound.valid, ?_⟩
    simp only [Handler.step, Handler.send_eq_update]
    exact grounded.within (.updateEstablished _ id fun session => session.send_stateless data)
  | recvFrom id => exact ⟨sound.valid, grounded.within (.recvFrom _ id)⟩
  | closeSession id oneTimeId => exact ⟨sound.valid, grounded.within (.removeSession _ id (some oneTimeId))⟩
  | keepalive id =>
    exact ⟨sound.valid, grounded.within (.updateEstablished _ id fun session => session.encrypt_stateless .keepalive)⟩
  | checkHeartbeat id =>
    exact ⟨sound.valid, grounded.within (.updateEstablished _ id fun session => session.checkHeartbeat_stateless)⟩

theorem promotion_carries (sound : Sound keys network) {src : SocketAddr} {packet : SessionPacket} {ephemeral : Nat}
    {promotion : Promotion Transport} {leg : Leg} {id : SessionId} {message : Bytes}
    (told : (network.handlers host).promotion (noise oracle) src packet ephemeral = some promotion)
    (taken : leg.takes (promoted host packet.id promotion) = some (id, message)) :
    id = packet.id ∧ leg.carries packet = some message := by
  have grounded := sound.grounded host
  have outcome := sound.outcome oracle host src packet ephemeral
  rw [told] at outcome
  generalize (network.handlers host).handlePacket (noise oracle) src packet ephemeral = next at outcome
  cases outcome with
  | @responding entry pending initiation response found carried waiting finished =>
    cases leg with
    | initiation =>
      cases taken
      rw [grounded.pokers _ _ found] at finished
      exact ⟨rfl, by rw [Leg.carries, carried, ← Option.some.inj finished]⟩
    | response => cases taken
  | @initiator entry session response next found carried accepted finished maps =>
    obtain ⟨initiation, state, -⟩ := grounded.initiators _ _ found
    rw [state] at finished
    cases leg with
    | initiation => cases taken
    | response =>
      simp only [promoted, Leg.takes, ← Option.some.inj finished] at taken
      cases taken
      exact ⟨rfl, carried⟩
  | @responder entry session next found transport opened maps =>
    obtain ⟨-, made, -⟩ := grounded.responders _ _ found
    obtain ⟨past, -, role, -⟩ := sound.valid.member made
    cases leg with
    | initiation => cases taken
    | response => simp [promoted, Leg.takes, transport, role] at taken

private theorem events_elsewhere {operation : Handler.Operation} {peer : Host} (different : peer ≠ host) (id : SessionId)
    (oneTimeId : OneTimeId) (transport : Transport) :
    .established peer id oneTimeId transport ∉ network.events oracle host operation := by
  intro member
  cases operation with
  | initiate => simp [events] at member
  | handleIncoming src data ephemeral =>
    simp only [events] at member
    split at member
    · cases member
    · obtain ⟨promotion, -, equal⟩ := List.mem_map.mp member
      cases promotion with
      | responding pending => cases equal
      | established otherOneTimeId session =>
        cases equal
        exact different rfl
  | respond | send | recvFrom | closeSession | keepalive | checkHeartbeat => cases member

theorem step (sound : Sound keys network) (distinct : Function.Injective keys) {label : Label}
    (admissible : network.Admissible oracle label) : Sound keys (network.step oracle label) := by
  cases label with
  | operate host operation =>
    obtain ⟨valid, grounded⟩ := sound.operate distinct admissible
    refine ⟨valid, ?_, ?_⟩
    · intro peer
      by_cases same : peer = host
      · subst same
        simpa [Network.step] using grounded
      · simpa [Network.step, same] using (sound.grounded peer).append valid (events_elsewhere same)
    · intro peer
      by_cases same : peer = host
      · subst same
        simpa [Network.step] using (sound.consistent peer).step (noise oracle) operation
      · simpa [Network.step, same] using sound.consistent peer
  | encrypt transport nonce message ciphertext =>
    simp only [Network.step]
    split
    next established =>
      obtain ⟨event, present, matching⟩ := List.any_eq_true.mp established
      have permitted : ∃ host id oneTimeId, .established host id oneTimeId transport ∈ network.history := by
        cases event with
        | established host id oneTimeId other =>
          simp only [isEstablished, decide_eq_true_eq] at matching
          exact ⟨host, id, oneTimeId, matching ▸ present⟩
        | initiated | responding | encrypted => cases matching
      have valid : Valid keys (.encrypted transport nonce (Message.codec.encode message) ciphertext :: network.history) :=
        ⟨permitted, sound.valid⟩
      exact ⟨valid, fun host => (sound.grounded host).cons valid (by intro _ _ _ equal; cases equal), sound.consistent⟩
    next => exact sound

theorem run (sound : Sound keys network) (distinct : Function.Injective keys) {labels : List Label}
    (admissible : network.Meets (Admissible oracle) oracle labels) : Sound keys (network.run oracle labels) :=
  admissible.invariant (fun _ _ _ sound admissible stepped => Option.some.inj stepped ▸ sound.step distinct admissible)
    sound (run_some oracle network labels)

end Sound

theorem keys_injective {keys : Host → Bytes} (distinct : keys .first ≠ keys .second) : Function.Injective keys := by
  intro host peer same
  cases host <;> cases peer <;> simp_all

/-- Whoever establishes a session has a peer at the other end of its handshake,
and no two sessions of responders come from one initiation. -/
theorem key_confirmation (oracle : Oracle) (keypairs : Host → SnowKeypair)
    (distinct : (keypairs .first).publicKey ≠ (keypairs .second).publicKey) (labels : List Label)
    (admissible : (start keypairs).Meets (Admissible oracle) oracle labels) :
    let network := (start keypairs).run oracle labels
    (∀ host id oneTimeId session, (network.handlers host).establishedSessions id = some (oneTimeId, session) →
      .established host id oneTimeId session.transport.stateless ∈ network.history) ∧
    (∀ later past host id oneTimeId transport,
      network.history = later ++ .established host id oneTimeId transport :: past →
        (transport.role = .responder → ∃ peerId peerOneTimeId peer,
          .established host.other peerId peerOneTimeId peer ∈ past ∧ peer.role = .initiator ∧
            peer.transcript = transport.transcript) ∧
        (transport.role = .initiator → ∃ peerId peer,
          .responding host.other peerId peer ∈ past ∧ peer.transcript = transport.transcript)) ∧
    (establishedAs .responder network.history).Pairwise fun first second =>
      first.transcript ≠ second.transcript ∧ first.initiation ≠ second.initiation := by
  intro network
  have sound : Sound (fun host => (keypairs host).publicKey) network :=
    Sound.start.run (keys_injective distinct) admissible
  refine ⟨fun host => (sound.grounded host).established, ?_, ?_⟩
  · intro later past host id oneTimeId transport split
    have valid := sound.valid
    rw [split] at valid
    obtain ⟨-, confirmed⟩ := valid.permitted
    refine ⟨?_, ?_⟩
    · intro role
      obtain ⟨-, ⟨peerId, peerOneTimeId, present⟩, -⟩ := confirmed.responder role
      exact ⟨peerId, peerOneTimeId, _, present, by simp [Transport.mirror, role], rfl⟩
    · intro role
      obtain ⟨-, ⟨peerId, present⟩, -⟩ := confirmed.initiator role
      exact ⟨peerId, _, present, rfl⟩
  · refine (List.pairwise_map.mp sound.valid.responders_once).imp ?_
    intro first second different
    exact ⟨fun same => different (congrArg Prod.fst same), different⟩

/-- Messages in the clear: a response repeats its initiation, and a ciphertext
names its direction, response and nonce. -/
def transparent : Oracle where
  writes state ephemeral :=
    match state.role with
    | .initiator => some [1, .ofNat ephemeral]
    | .responder => state.initiation.map fun initiation => 2 :: .ofNat ephemeral :: initiation
  accepts state message :=
    match state.role, message with
    | .initiator, 2 :: _ :: initiation => state.initiation = some initiation
    | .responder, 1 :: _ => true
    | _, _ => false
  encrypts transport nonce payload _ := some (payload ++ stamp transport nonce)
  decrypts transport nonce payload _ :=
    let plaintext := payload.take (payload.length - (stamp transport.mirror nonce).length)
    if payload = plaintext ++ stamp transport.mirror nonce then some plaintext else none
where
  stamp (transport : Transport) (nonce : Nat) : Bytes :=
    (if transport.role = .initiator then 1 else 2) :: transport.response ++ leBytes 8 nonce

def keypairOf : Host → SnowKeypair
  | .first => ⟨[1], [11]⟩
  | .second => ⟨[2], [12]⟩

def initiatorEnd : Transport := ⟨.initiator, [1], [2], [1, 5], [2, 6, 1, 5]⟩

def firstKeepalive : Bytes := Message.codec.encode .keepalive ++ transparent.stamp initiatorEnd 0

/-- The initiation is shown to a second poker as well, whose answer is not the
one that the initiator accepts; the keepalive confirms only the first. -/
def replayed : List Label := [
  .operate .first (.initiate 7 ⟨[], [2]⟩ 5 40), .operate .second (.respond 7 ⟨[], [1]⟩ 41),
  .operate .second (.respond 8 ⟨[], [1]⟩ 42),
  .operate .second (.handleIncoming (.v4 0 0) (Handler.packetFor 7 (.handshakeInitiation [1, 5])) 6),
  .operate .second (.handleIncoming (.v4 0 0) (Handler.packetFor 8 (.handshakeInitiation [1, 5])) 9),
  .operate .first (.handleIncoming (.v4 0 0) (Handler.packetFor 7 (.handshakeResponse [2, 6, 1, 5])) 0),
  .encrypt initiatorEnd 0 .keepalive firstKeepalive,
  .operate .second (.handleIncoming (.v4 0 0) (Handler.packetFor 8 (.encrypted (Nonced.codec.encode ⟨0, firstKeepalive⟩))) 0),
  .operate .second (.handleIncoming (.v4 0 0) (Handler.packetFor 7 (.encrypted (Nonced.codec.encode ⟨0, firstKeepalive⟩))) 0)]

theorem key_confirmation_replayed :
    let network := (start keypairOf).run transparent replayed
    establishedAs .responder network.history = [initiatorEnd.mirror] ∧
    ∃ peerId peerOneTimeId peer, .established .first peerId peerOneTimeId peer ∈ network.history.tail ∧
      peer.role = .initiator ∧ peer.transcript = initiatorEnd.mirror.transcript := by
  intro network
  refine ⟨by decide +kernel, ?_⟩
  have latest : network.history = [] ++ .established .second 7 41 initiatorEnd.mirror :: network.history.tail := by
    decide +kernel
  exact ((key_confirmation transparent keypairOf (by decide) replayed (by decide +kernel)).2.1 [] network.history.tail
    .second 7 41 initiatorEnd.mirror latest).1 rfl

/-- Whoever takes this message has the id that the message was made under. -/
def Bound (leg : Leg) (message : Bytes) (history : List Event) : Prop :=
  ∀ taker ∈ history, ∀ maker ∈ history, ∀ id peerId, leg.takes taker = some (id, message) →
    leg.makes maker = some (peerId, message) → id = peerId

namespace Bound

variable {keys : Host → Bytes} {leg : Leg} {message : Bytes} {history : List Event} {network : Network} {oracle : Oracle}

theorem cons {event : Event} (bound : Bound leg message history) (permitted : Permitted keys history event)
    (kept : ∀ id, leg.takes event = some (id, message) →
      ∀ maker ∈ history, ∀ peerId, leg.makes maker = some (peerId, message) → id = peerId) :
    Bound leg message (event :: history) := by
  intro taker takerMember maker makerMember id peerId taken made
  rcases List.mem_cons.mp takerMember with rfl | took
  · rcases List.mem_cons.mp makerMember with rfl | earlier
    · rw [Leg.takes_makes taken] at made
      cases made
    · exact kept id taken maker earlier peerId made
  · rcases List.mem_cons.mp makerMember with rfl | earlier
    · exact absurd (Leg.takes_messages taken) (Valid.fresh permitted (Leg.makes_produces made) taker took)
    · exact bound taker took maker earlier id peerId taken made

theorem step (bound : Bound leg message network.history) (sound : Sound keys network) (distinct : Function.Injective keys)
    {label : Label} (admissible : network.Admissible oracle label) (keeps : network.KeepsId leg message label) :
    Bound leg message (network.step oracle label).history := by
  have valid := (sound.step distinct admissible).valid
  cases label with
  | encrypt transport nonce plaintext ciphertext =>
    simp only [Network.step] at valid ⊢
    split at valid
    next established =>
      rw [if_pos established]
      exact bound.cons valid.1 (by intro _ taken; cases leg <;> cases taken)
    next absent =>
      rw [if_neg absent]
      exact bound
  | operate host operation =>
    simp only [Network.step] at valid ⊢
    cases operation with
    | initiate id info ephemeral oneTimeId =>
      simp only [events] at valid ⊢
      cases made : network.initiation oracle host info ephemeral with
      | none => exact bound
      | some initiation =>
        rw [made] at valid
        exact bound.cons valid.1 (by intro _ taken; cases leg <;> cases taken)
    | handleIncoming src data ephemeral =>
      simp only [events] at valid ⊢
      cases decoded : SessionPacket.codec.deserialize data with
      | none => exact bound
      | some packet =>
        simp only [decoded] at valid ⊢
        cases told : (network.handlers host).promotion (noise oracle) src packet ephemeral with
        | none => exact bound
        | some promotion =>
          rw [told] at valid
          refine bound.cons valid.1 ?_
          intro id taken maker earlier peerId made
          obtain ⟨rfl, carried⟩ := sound.promotion_carries told taken
          exact keeps packet decoded carried maker earlier _ made rfl
    | respond | send | recvFrom | closeSession | keepalive | checkHeartbeat => exact bound

theorem run (bound : Bound leg message network.history) (sound : Sound keys network) (distinct : Function.Injective keys)
    {labels : List Label} (admissible : network.Meets (Admissible oracle) oracle labels)
    (keeps : network.Meets (KeepsId leg message) oracle labels) : Bound leg message (network.run oracle labels).history := by
  have preserves : ∀ network label next, (Sound keys network ∧ Bound leg message network.history) →
      (network.Admissible oracle label ∧ network.KeepsId leg message label) → some (network.step oracle label) = some next →
      Sound keys next ∧ Bound leg message next.history := by
    rintro network label next ⟨sound, bound⟩ ⟨admissible, keeps⟩ stepped
    cases stepped
    exact ⟨sound.step distinct admissible, bound.step sound distinct admissible keeps⟩
  exact ((admissible.and keeps).invariant preserves ⟨sound, bound⟩ (run_some oracle network labels)).2

end Bound

/-- Sessions of one role and transcript belong to one host. -/
private theorem Sound.role_ne {keys : Host → Bytes} {network : Network} (sound : Sound keys network)
    (distinct : Function.Injective keys) {host : Host} {id peerId : SessionId} {oneTimeId peerOneTimeId : OneTimeId}
    {transport peer : Transport} (here : .established host id oneTimeId transport ∈ network.history)
    (there : .established host.other peerId peerOneTimeId peer ∈ network.history)
    (same : transport.transcript = peer.transcript) : transport.role ≠ peer.role := by
  intro sameRole
  have once : ((establishedAs transport.role network.history).map Transport.initiation).Nodup := by
    cases transport.role with
    | initiator => exact sound.valid.initiators_once
    | responder => exact sound.valid.responders_once
  have equal : transport = peer := List.inj_on_of_nodup_map once (mem_establishedAs.mpr ⟨rfl, _, _, _, here⟩)
    (mem_establishedAs.mpr ⟨sameRole.symm, _, _, _, there⟩) (congrArg Prod.fst same)
  have keys : keys host = keys host.other := by
    rw [← (sound.valid.belongs here).1, ← (sound.valid.belongs there).1, equal]
  exact host.other_ne (distinct keys).symm

/-- The ends of one handshake have one id, if either of its messages was taken under
the id that it was made under. -/
private theorem Sound.id_eq {keys : Host → Bytes} {network : Network} (sound : Sound keys network) {host : Host} {id peerId : SessionId} {oneTimeId peerOneTimeId : OneTimeId}
    {transport peer : Transport} (here : .established host id oneTimeId transport ∈ network.history)
    (role : transport.role = .initiator) (there : .established host.other peerId peerOneTimeId peer ∈ network.history)
    (peerRole : peer.role = .responder) (same : transport.transcript = peer.transcript)
    (bound : Bound .initiation transport.initiation network.history ∨ Bound .response transport.response network.history) :
    id = peerId := by
  have initiation : transport.initiation = peer.initiation := congrArg Prod.fst same
  have response : transport.response = peer.response := congrArg Prod.snd same
  obtain ⟨past, subset, -, confirmed⟩ := sound.valid.member here
  obtain ⟨peerPast, peerSubset, -, peerConfirmed⟩ := sound.valid.member there
  have made := subset (confirmed.initiator role).1
  have responded := peerSubset (peerConfirmed.responder peerRole).1
  rcases bound with first | second
  · exact (first _ responded _ made peerId id (by simp [Leg.takes, initiation]) (by simp [Leg.makes])).symm
  · exact second _ here _ responded id peerId (by simp [Leg.takes, role]) (by simp [Leg.makes, response])

/-- Two ends of one handshake have the same id, unless both its initiation and its
response arrived under another id than the one that they were made under. Nothing
in the handshake binds the id, so that this is left to the network. -/
theorem ids_agree (oracle : Oracle) (keypairs : Host → SnowKeypair)
    (distinct : (keypairs .first).publicKey ≠ (keypairs .second).publicKey) (labels : List Label)
    (admissible : (start keypairs).Meets (Admissible oracle) oracle labels) (host : Host) (x y : SessionId)
    (oneTimeId peerOneTimeId : OneTimeId) (transport peer : Transport)
    (keeps : (start keypairs).Meets (KeepsId .initiation transport.initiation) oracle labels ∨
      (start keypairs).Meets (KeepsId .response transport.response) oracle labels) :
    let network := (start keypairs).run oracle labels
    .established host x oneTimeId transport ∈ network.history →
    .established host.other y peerOneTimeId peer ∈ network.history →
    transport.transcript = peer.transcript → x = y := by
  intro network here there same
  have injective : Function.Injective fun host => (keypairs host).publicKey := keys_injective distinct
  have sound : Sound _ network := Sound.start.run injective admissible
  have unbound : ∀ leg message, Bound leg message (start keypairs).history := by
    intro _ _ _ member
    cases member
  have bound : Bound .initiation transport.initiation network.history ∨ Bound .response transport.response network.history :=
    keeps.imp ((unbound _ _).run .start injective admissible) ((unbound _ _).run .start injective admissible)
  have different := sound.role_ne injective here there same
  cases role : transport.role with
  | initiator =>
    cases peerRole : peer.role with
    | initiator => exact absurd (role.trans peerRole.symm) different
    | responder => exact sound.id_eq here role there peerRole same bound
  | responder =>
    cases peerRole : peer.role with
    | initiator =>
      have initiation : transport.initiation = peer.initiation := congrArg Prod.fst same
      have response : transport.response = peer.response := congrArg Prod.snd same
      rw [initiation, response] at bound
      rw [← host.other_other] at here
      exact (sound.id_eq there peerRole here role same.symm bound).symm
    | responder => exact absurd (role.trans peerRole.symm) different

/-- One handshake, in which the initiation reaches the responder under the id
`y`. -/
def relabelled (x y : SessionId) : List Label := [
  .operate .first (.initiate x ⟨[], [2]⟩ 5 40), .operate .second (.respond y ⟨[], [1]⟩ 41),
  .operate .second (.handleIncoming (.v4 0 0) (Handler.packetFor y (.handshakeInitiation [1, 5])) 6),
  .operate .first (.handleIncoming (.v4 0 0) (Handler.packetFor x (.handshakeResponse [2, 6, 1, 5])) 0),
  .encrypt initiatorEnd 0 .keepalive firstKeepalive,
  .operate .second (.handleIncoming (.v4 0 0) (Handler.packetFor y (.encrypted (Nonced.codec.encode ⟨0, firstKeepalive⟩))) 0)]

/-- The initiation is also shown to a poker of another id, and the response is not. -/
theorem ids_agree_replayed :
    let network := (start keypairOf).run transparent replayed
    network.history.contains (.established .first 7 40 initiatorEnd) = true ∧
    network.history.contains (.established .second 7 41 initiatorEnd.mirror) = true ∧
    ¬ (start keypairOf).Meets (KeepsId .initiation initiatorEnd.initiation) transparent replayed ∧ (7 : SessionId) = 7 := by
  refine ⟨by decide +kernel, by decide +kernel, by decide +kernel, ?_⟩
  exact ids_agree transparent keypairOf (by decide) replayed (by decide +kernel) .first 7 7 40 41 initiatorEnd
    initiatorEnd.mirror (.inr (by decide +kernel)) (by decide +kernel) (by decide +kernel) rfl

/-- The two ends of one handshake, registered under different ids. -/
theorem different_ids :
    let network := (start keypairOf).run transparent (relabelled 7 8)
    (keypairOf .first).publicKey ≠ (keypairOf .second).publicKey ∧
    (start keypairOf).Meets (Admissible transparent) transparent (relabelled 7 8) ∧
    ((network.handlers .first).establishedSessions 7).map (fun entry => entry.2.transport.stateless) = some initiatorEnd ∧
    ((network.handlers .second).establishedSessions 8).map (fun entry => entry.2.transport.stateless) =
      some initiatorEnd.mirror ∧
    initiatorEnd.transcript = initiatorEnd.mirror.transcript ∧ (7 : SessionId) ≠ 8 :=
  ⟨by decide, by decide +kernel, by decide +kernel, by decide +kernel, rfl, by decide⟩

end Network
end Veq
