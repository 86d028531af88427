import Veq.Pipe
import Veq.Proofs.Boundaries
import Veq.Proofs.Framing
import Veq.Proofs.Handover
import Veq.Proofs.Traffic

/-! What a handle receives over a network that loses datagrams and keeps their order:
exactly the messages of which no chunk was lost. -/

namespace Veq
open Rust Bincode LossyTransportState Assembly Boundaries Runs

variable {S : Type}

namespace Pipe

def contents (messages : List Message) : List Bytes := messages.filterMap Message.payloadOf

/-- A message that is not empty and of which no chunk was lost. -/
def survives (lost : List Message) (message : Bytes × Nat) : Bool :=
  !message.1.isEmpty &&
    (Chunker.chunked message.2 4096 message.1).all fun chunk => .payload (ChunkedData.codec.encode chunk) ∉ lost

/-- Nothing is left to transmit, to deliver or to receive. -/
def Drained (pipe : Pipe S) : Prop :=
  pipe.outbox = [] ∧ pipe.wire = [] ∧ pipe.reader.delegate.messages = [] ∧ pipe.reader.completedChunks = []

/-- A datagram on its way: a short message encrypted at some nonce. -/
structure Carried (cipher : Cipher S) (writer : S) (id : SessionId) (nonce : Nat) (entry : Bytes × Message) : Prop where
  bounded : nonce < 2 ^ 64 - 1
  short : (Message.codec.encode entry.2).length ≤ 4140
  fits : Message.codec.Fits entry.2
  sealed : ∃ ciphertext, cipher.writeMessage writer nonce (Message.codec.encode entry.2) 65535 = some ciphertext ∧
    ciphertext.length ≤ 4156 ∧ entry.1 = SessionPacket.codec.encode
      ⟨id, RawMessage.codec.encode (.encrypted (Nonced.codec.encode ⟨nonce, ciphertext⟩))⟩

section

variable {cipher : Cipher S} {writer reader : S} {id : SessionId} {nonce : Nat} {entry : Bytes × Message}

theorem encrypt_carried (seals : cipher.Seals writer reader) {session : Session S} (named : session.id = id)
    (same : session.transport.stateless = writer) (room : session.transport.nextNonce < 2 ^ 64 - 1) {message : Message}
    (short : (Message.codec.encode message).length ≤ 4140) (fits : Message.codec.Fits message) :
    ∃ packet, (session.encrypt cipher message).2 = .ok (session.remoteAddr, packet, 64) ∧
      (session.encrypt cipher message).1 =
        { session with transport := { session.transport with nextNonce := session.transport.nextNonce + 1 } } ∧
      Carried cipher writer id session.transport.nextNonce (SessionPacket.codec.encode packet, message) := by
  subst same
  subst named
  obtain ⟨ciphertext, written, tagged⟩ := seals.writes session.transport.nextNonce (Message.codec.encode message) 65535 room
    (by omega)
  have layers : (Nonced.codec.encode ⟨session.transport.nextNonce, ciphertext⟩).length ≤ 65535 := by
    rw [Nonced.length_encode]
    simp only
    omega
  have whole := session.encrypt_whole room written layers
  have added : addU64 session.transport.nextNonce 1 = .ok (session.transport.nextNonce + 1) := by
    rw [addU64, if_pos (by omega)]
  refine ⟨_, whole, ?_, room, short, fits, ciphertext, written, by omega, rfl⟩
  rw [session.encrypt_state]
  simp [writeMessage, added, written]

theorem deliver_carried (seals : cipher.Seals writer reader) (carried : Carried cipher writer id nonce entry)
    {handle : Chunker (Session S)} (named : handle.delegate.id = id)
    (same : handle.delegate.transport.stateless = reader)
    (admitted : ¬ Window.Refuses handle.delegate.transport.receivedNonces nonce) :
    ∃ session, deliver cipher handle entry.1 = { handle with delegate := session } ∧
      session.transport = { handle.delegate.transport with
        receivedNonces := Window.enter handle.delegate.transport.size handle.delegate.transport.receivedNonces nonce } ∧
      session.messages = handle.delegate.messages ++ (Message.payloadOf entry.2).toList ∧
      session.id = handle.delegate.id ∧ session.dead = handle.delegate.dead := by
  obtain ⟨bounded, short, fits, ciphertext, written, tagged, datagram⟩ := carried
  subst same
  obtain ⟨-, -, decoded, raw⟩ := sealed_layers id nonce tagged
  have opens := seals.opens nonce _ ciphertext 65535 65535 written (by omega)
  have read := readMessage_admitted (by omega) (by omega) admitted opens
  have carries : SessionPacket.encrypted
      ⟨id, RawMessage.codec.encode (.encrypted (Nonced.codec.encode ⟨nonce, ciphertext⟩))⟩ =
        some (Nonced.codec.encode ⟨nonce, ciphertext⟩) := by
    rw [SessionPacket.encrypted, raw]
  have state := handle.delegate.handleIncoming_state cipher
    ⟨id, RawMessage.codec.encode (.encrypted (Nonced.codec.encode ⟨nonce, ciphertext⟩))⟩
  refine ⟨(handle.delegate.handleIncoming cipher
    ⟨id, RawMessage.codec.encode (.encrypted (Nonced.codec.encode ⟨nonce, ciphertext⟩))⟩).1, ?_, ?_, ?_,
    handle.delegate.handleIncoming_id cipher _, handle.delegate.handleIncoming_dead cipher _⟩
  · rw [deliver, datagram, decoded]
    simp only [named, ↓reduceIte]
  · rw [state.1, afterPacket, carries]
    simp only [read]
  · rw [state.2]
    refine congrArg (handle.delegate.messages ++ ·) ?_
    have parsed : Nonced.codec.deserialize (Nonced.codec.encode ⟨nonce, ciphertext⟩) = some ⟨nonce, ciphertext⟩ :=
      Nonced.codec.deserialize_encode (Nonced.fits (by simp only; omega) (by simp only; omega))
    rw [payloads_eq, acceptedIn, Party.opening, carries]
    simp only [read?, read, parsed, Option.bind_some, Option.map_some, Option.toList_some,
      List.filterMap_cons, Message.codec.deserialize_encode fits, List.filterMap_nil]
    cases Message.payloadOf entry.2 <;> rfl

end

/-- The writer and the reader are the two ends of a living session, and what is on
the wire has nonces that the reader has yet to see. -/
structure Carrying (cipher : Cipher S) (writer reader : S) (id : SessionId) (pipe : Pipe S) (nonces : List Nat) : Prop where
  writerId : pipe.writer.delegate.id = id
  writerAlive : pipe.writer.delegate.dead = false
  writerState : pipe.writer.delegate.transport.stateless = writer
  readerId : pipe.reader.delegate.id = id
  readerAlive : pipe.reader.delegate.dead = false
  readerState : pipe.reader.delegate.transport.stateless = reader
  wire : List.Forall₂ (Carried cipher writer id) nonces pipe.wire
  rising : (nonces ++ [pipe.writer.delegate.transport.nextNonce]).Pairwise (· < ·)
  unseen : ∀ seen ∈ pipe.reader.delegate.transport.receivedNonces,
    ∀ nonce ∈ nonces ++ [pipe.writer.delegate.transport.nextNonce], seen < nonce

/-- What a writer has cut from the messages that it was given: the chunks on the wire
or beyond it, and the chunks in the outbox. -/
structure Cutting (pipe : Pipe S) (emitted remaining : List ChunkedData) : Prop where
  chunkSize : pipe.writer.chunkSize = 4096
  currentGroup : pipe.writer.currentGroup = pipe.sent.length
  bounded : ∀ data ∈ pipe.sent, data.length < 2 ^ 63
  few : pipe.sent.length ≤ 2 ^ 64 - 1
  cut : emitted ++ remaining = cut 4096 0 pipe.sent
  outbox : pipe.outbox = remaining.map ChunkedData.codec.encode

/-- The payloads that have arrived, the first of them consumed by the reader's
handle. -/
def arrived (pipe : Pipe S) (consumed : List ChunkedData) : List Bytes :=
  consumed.map ChunkedData.codec.encode ++ pipe.reader.delegate.messages

/-- Every emitted payload has arrived, was lost or is on the wire, and those that were
not lost are in order. -/
structure Accounting (arrived lost wire emitted : List Bytes) : Prop where
  fates : (arrived ++ lost ++ wire).Perm emitted
  order : (arrived ++ wire).Sublist emitted

namespace Accounting

variable {arrived lost wire emitted : List Bytes}

theorem emit (accounting : Accounting arrived lost wire emitted) (payload : Bytes) :
    Accounting arrived lost (wire ++ [payload]) (emitted ++ [payload]) where
  fates := by
    rw [← List.append_assoc]
    exact accounting.fates.append_right [payload]
  order := by
    rw [← List.append_assoc]
    exact accounting.order.append_right [payload]

theorem deliver {payload : Option Bytes} (accounting : Accounting arrived lost (payload.toList ++ wire) emitted) :
    Accounting (arrived ++ payload.toList) lost wire emitted where
  fates := by
    refine List.Perm.trans ?_ accounting.fates
    simp only [List.append_assoc]
    apply List.Perm.append_left
    rw [← List.append_assoc, ← List.append_assoc]
    exact List.perm_append_comm.append_right wire
  order := by
    rw [List.append_assoc]
    exact accounting.order

theorem lose {payload : Option Bytes} (accounting : Accounting arrived lost (payload.toList ++ wire) emitted) :
    Accounting arrived (lost ++ payload.toList) wire emitted where
  fates := by
    simpa only [List.append_assoc] using accounting.fates
  order := by
    refine List.Sublist.trans ?_ accounting.order
    exact (List.Sublist.refl arrived).append (List.sublist_append_right _ _)

end Accounting

/-- The fates of the payloads of a pipe whose reader's handle consumed some chunks. -/
def Accounted (pipe : Pipe S) (emitted consumed : List ChunkedData) : Prop :=
  Accounting (pipe.arrived consumed) (contents pipe.lost) (contents (pipe.wire.map Prod.snd))
    (emitted.map ChunkedData.codec.encode)

/-- What the reader's handle has made of the chunks that it consumed. -/
structure Joining (messages : List Bytes) (pipe : Pipe S) (consumed : List ChunkedData) (done : List Nat) : Prop where
  fits : ∀ chunk ∈ consumed, ChunkedData.codec.Fits chunk
  inOrder : InOrder (piecesOf 4096 messages) consumed done pipe.reader
  output : pipe.returned ++ pipe.reader.completedChunks = done.map (message (piecesOf 4096 messages))

/-- The invariant of a pipe, for messages that it will be given in all. -/
structure Flowing (cipher : Cipher S) (writer reader : S) (id : SessionId) (messages : List Bytes) (pipe : Pipe S) : Prop where
  given : pipe.sent <+: messages
  carrying : ∃ nonces, Carrying cipher writer reader id pipe nonces
  conveying : ∃ emitted remaining consumed done, Cutting pipe emitted remaining ∧ Accounted pipe emitted consumed ∧
    Joining messages pipe consumed done

theorem Flowing.start (cipher : Cipher S) (writer reader : S) (id : SessionId) (writerAddr readerAddr : SocketAddr)
    (messages : List Bytes) : Flowing cipher writer reader id messages (start id writerAddr readerAddr writer reader) where
  given := List.nil_prefix
  carrying := ⟨[], rfl, rfl, rfl, rfl, rfl, rfl, .nil, by simp, by simp [Pipe.start, Chunker.connected, Chunker.new,
    Session.new, fromStateless, LossyTransportState.new]⟩
  conveying := ⟨[], [], [], [], ⟨rfl, rfl, by simp [Pipe.start], by simp [Pipe.start], rfl, rfl⟩,
    ⟨.refl _, .refl _⟩, by simp, InOrder.new _ _ _, rfl⟩

section

variable {cipher : Cipher S} {writer reader : S} {id : SessionId} {messages : List Bytes} {pipe next : Pipe S}
  {emitted remaining consumed : List ChunkedData} {done nonces : List Nat}

theorem cut_concat (chunkSize : Nat) (messages : List Bytes) (data : Bytes) :
    cut chunkSize 0 (messages ++ [data]) = cut chunkSize 0 messages ++ Chunker.chunked messages.length chunkSize data := by
  simp [cut, List.zipIdx_append]

theorem Cutting.valid (cutting : Cutting pipe emitted remaining) (given : pipe.sent <+: messages) {chunk : ChunkedData}
    (member : chunk ∈ emitted ++ remaining) : Genuine (piecesOf 4096 messages) chunk ∧ ChunkedData.codec.Fits chunk ∧
      (ChunkedData.codec.encode chunk).length ≤ 4128 := by
  rw [cutting.cut] at member
  obtain ⟨position, data, sent, piece⟩ := mem_cut.mp member
  obtain ⟨rest, rfl⟩ := given
  have inside := (List.getElem?_eq_some_iff.mp sent).1
  have few := cutting.few
  have later : (pipe.sent ++ rest)[position]? = some data := by rw [List.getElem?_append_left inside, sent]
  have length := Chunker.chunked_length piece
  have bounded := cutting.bounded data (List.mem_of_getElem? sent)
  refine ⟨chunked_genuine later (few_pieces bounded) piece,
    chunked_fits (by decide) bounded (by omega) piece, ?_⟩
  rw [ChunkedData.length_encode]
  omega

theorem Cutting.ordered (cutting : Cutting pipe emitted remaining) : emitted.Pairwise Before := by
  have all := cut_ordered 4096 pipe.sent
  rw [← cutting.cut] at all
  exact (List.pairwise_append.mp all).1

theorem Cutting.send (cutting : Cutting pipe emitted remaining) (idle : pipe.outbox = []) {data : ByteVec}
    {handle : Chunker (Session S)} {outbox : List Bytes} (prepared : pipe.writer.prepare data.val = .ok (handle, outbox)) :
    handle.delegate = pipe.writer.delegate ∧
      ∃ pending, Cutting { pipe with writer := handle, outbox, sent := pipe.sent ++ [data.val] } emitted pending := by
  have size := cutting.chunkSize
  have group := cutting.currentGroup
  have nothing : remaining = [] := by
    rw [cutting.outbox] at idle
    exact List.map_eq_nil_iff.mp idle
  have cut := cutting.cut
  rw [nothing, List.append_nil] at cut
  rcases prepare_cases pipe.writer data.val (by omega) with ⟨failed, -⟩ | ⟨succeeded, room⟩
  · rw [failed] at prepared
    cases prepared
  · rw [succeeded] at prepared
    cases prepared
    rw [size, group]
    refine ⟨rfl, Chunker.chunked pipe.sent.length 4096 data.val, rfl, ?_, ?_, ?_, ?_, rfl⟩
    · simp
    · intro other member
      rcases List.mem_append.mp member with earlier | now
      · exact cutting.bounded other earlier
      · exact List.mem_singleton.mp now ▸ data.property
    · simp only [List.length_append, List.length_singleton]
      omega
    · rw [cut, cut_concat]

theorem Flowing.send (flowing : Flowing cipher writer reader id messages pipe) (idle : pipe.outbox = []) {data : ByteVec}
    {handle : Chunker (Session S)} {outbox : List Bytes} (prepared : pipe.writer.prepare data.val = .ok (handle, outbox))
    (given : pipe.sent ++ [data.val] <+: messages) :
    Flowing cipher writer reader id messages { pipe with writer := handle, outbox, sent := pipe.sent ++ [data.val] } := by
  obtain ⟨nonces, carrying⟩ := flowing.carrying
  obtain ⟨emitted, remaining, consumed, done, cutting, accounting, joining⟩ := flowing.conveying
  obtain ⟨same, pending, next⟩ := cutting.send idle prepared
  refine ⟨given, ⟨nonces, ?_⟩, emitted, pending, consumed, done, next, accounting,
    ⟨joining.fits, joining.inOrder, joining.output⟩⟩
  obtain ⟨writerId, writerAlive, writerState, readerId, readerAlive, readerState, wire, rising, unseen⟩ := carrying
  rw [← same] at writerId writerAlive writerState rising unseen
  exact ⟨writerId, writerAlive, writerState, readerId, readerAlive, readerState, wire, rising, unseen⟩

theorem Carrying.emit (carrying : Carrying cipher writer reader id pipe nonces) {packet : SessionPacket} {message : Message}
    (carried : Carried cipher writer id pipe.writer.delegate.transport.nextNonce (SessionPacket.codec.encode packet, message))
    (outbox : List Bytes) :
    Carrying cipher writer reader id
      (Pipe.emit { pipe with
        writer := { pipe.writer with delegate := { pipe.writer.delegate with transport :=
          { pipe.writer.delegate.transport with nextNonce := pipe.writer.delegate.transport.nextNonce + 1 } } }
        outbox } message packet) (nonces ++ [pipe.writer.delegate.transport.nextNonce]) := by
  obtain ⟨writerId, writerAlive, writerState, readerId, readerAlive, readerState, wire, rising, unseen⟩ := carrying
  refine ⟨writerId, writerAlive, writerState, readerId, readerAlive, readerState, ?_, ?_, ?_⟩
  · exact List.rel_append wire (.cons carried .nil)
  · refine List.pairwise_append.mpr ⟨rising, List.pairwise_singleton _ _, ?_⟩
    intro nonce member last same
    rw [List.mem_singleton.mp same]
    rcases List.mem_append.mp member with earlier | now
    · have before := (List.pairwise_append.mp rising).2.2 nonce earlier _ (List.mem_singleton_self _)
      exact Nat.lt_succ_of_lt before
    · rw [List.mem_singleton.mp now]
      exact Nat.lt_succ_self _
  · intro seen member nonce inside
    rcases List.mem_append.mp inside with earlier | now
    · exact unseen seen member nonce earlier
    · rw [List.mem_singleton.mp now]
      exact Nat.lt_succ_of_lt (unseen seen member _ (List.mem_append_right _ (List.mem_singleton_self _)))

theorem Carrying.encrypt (carrying : Carrying cipher writer reader id pipe nonces) (seals : cipher.Seals writer reader)
    (room : pipe.writer.delegate.transport.nextNonce < 2 ^ 64 - 1) (message : Message)
    (short : (Message.codec.encode message).length ≤ 4140) (fits : Message.codec.Fits message) :
    ∃ packet, pipe.writer.delegate.encrypt cipher message =
        ({ pipe.writer.delegate with transport :=
          { pipe.writer.delegate.transport with nextNonce := pipe.writer.delegate.transport.nextNonce + 1 } },
          .ok (pipe.writer.delegate.remoteAddr, packet, 64)) ∧
      Carried cipher writer id pipe.writer.delegate.transport.nextNonce (SessionPacket.codec.encode packet, message) := by
  obtain ⟨packet, result, state, carried⟩ := encrypt_carried seals carrying.writerId carrying.writerState room short fits
  exact ⟨packet, Prod.ext state result, carried⟩

theorem contents_append (first second : List Message) : contents (first ++ second) = contents first ++ contents second :=
  List.filterMap_append

theorem contents_singleton (message : Message) : contents [message] = (Message.payloadOf message).toList := by
  cases message <;> rfl

theorem contents_emit (pipe : Pipe S) (message : Message) (packet : SessionPacket) :
    contents ((pipe.emit message packet).wire.map Prod.snd) =
      contents (pipe.wire.map Prod.snd) ++ (Message.payloadOf message).toList := by
  rw [Pipe.emit, List.map_append, contents_append]
  exact congrArg _ (contents_singleton message)

theorem contents_wire {datagram : Bytes} {message : Message} {wire : List (Bytes × Message)} :
    contents (((datagram, message) :: wire).map Prod.snd) = (Message.payloadOf message).toList ++ contents (wire.map Prod.snd) := by
  rw [← contents_singleton, ← contents_append]
  rfl

theorem Flowing.keepalive (flowing : Flowing cipher writer reader id messages pipe) (seals : cipher.Seals writer reader)
    (room : pipe.writer.delegate.transport.nextNonce < 2 ^ 64 - 1) :
    Flowing cipher writer reader id messages (pipe.keepalive cipher) ∧
      (pipe.keepalive cipher).writer.delegate.transport.nextNonce = pipe.writer.delegate.transport.nextNonce + 1 := by
  obtain ⟨nonces, carrying⟩ := flowing.carrying
  obtain ⟨emitted, remaining, consumed, done, cutting, accounted, joining⟩ := flowing.conveying
  obtain ⟨packet, encrypted, carried⟩ := carrying.encrypt seals room .keepalive (by decide) Message.fits_keepalive
  rw [Pipe.keepalive, Session.keepalive, encrypted]
  refine ⟨⟨flowing.given, ⟨_, carrying.emit carried pipe.outbox⟩, emitted, remaining, consumed, done,
    ⟨cutting.chunkSize, cutting.currentGroup, cutting.bounded, cutting.few, cutting.cut, cutting.outbox⟩, ?_,
    ⟨joining.fits, joining.inOrder, joining.output⟩⟩, rfl⟩
  rw [Accounted, contents_emit]
  simp only [Message.payloadOf, Option.toList_none, List.append_nil]
  exact accounted

theorem Flowing.transmit (flowing : Flowing cipher writer reader id messages pipe) (seals : cipher.Seals writer reader)
    (room : pipe.writer.delegate.transport.nextNonce < 2 ^ 64 - 1) {data : Bytes} {outbox : List Bytes}
    (pending : pipe.outbox = data :: outbox) :
    Flowing cipher writer reader id messages (pipe.transmit cipher data outbox) ∧
      (pipe.transmit cipher data outbox).writer.delegate.transport.nextNonce =
        pipe.writer.delegate.transport.nextNonce + 1 ∧
      (pipe.transmit cipher data outbox).outbox = outbox ∧ (pipe.transmit cipher data outbox).sent = pipe.sent ∧
      (pipe.transmit cipher data outbox).lost = pipe.lost := by
  obtain ⟨nonces, carrying⟩ := flowing.carrying
  obtain ⟨emitted, remaining, consumed, done, cutting, accounted, joining⟩ := flowing.conveying
  obtain ⟨chunk, rest, rfl, rfl, rfl⟩ := List.map_eq_cons_iff.mp (cutting.outbox.symm.trans pending)
  obtain ⟨-, -, short⟩ := cutting.valid flowing.given (List.mem_append_right emitted List.mem_cons_self)
  have length := Message.length_encode_payload (ChunkedData.codec.encode chunk)
  obtain ⟨packet, encrypted, carried⟩ := carrying.encrypt seals room (.payload (ChunkedData.codec.encode chunk))
    (by omega) (Message.fits_payload (by omega))
  rw [Pipe.transmit, Session.send_alive carrying.writerAlive, encrypted]
  refine ⟨⟨flowing.given, ⟨_, carrying.emit carried _⟩, emitted ++ [chunk], rest, consumed, done,
    ⟨cutting.chunkSize, cutting.currentGroup, cutting.bounded, cutting.few, ?_, rfl⟩, ?_,
    ⟨joining.fits, joining.inOrder, joining.output⟩⟩, rfl, rfl, rfl, rfl⟩
  · rw [List.append_assoc]
    exact cutting.cut
  · rw [Accounted, contents_emit, List.map_append]
    exact accounted.emit (ChunkedData.codec.encode chunk)

theorem Carrying.admits {nonce : Nat} (carrying : Carrying cipher writer reader id pipe (nonce :: nonces)) :
    ¬ Window.Refuses pipe.reader.delegate.transport.receivedNonces nonce := by
  rw [Window.refuses_iff]
  intro refused
  rcases refused with member | ⟨⟨seen, member⟩, below⟩
  · exact Nat.lt_irrefl _ (carrying.unseen nonce member nonce (by simp))
  · exact Nat.lt_asymm (carrying.unseen seen member nonce (by simp)) (below seen member)

theorem Accounted.head {datagram : Bytes} {message : Message} {wire : List (Bytes × Message)}
    (accounted : Accounted pipe emitted consumed) (next : pipe.wire = (datagram, message) :: wire) :
    Accounting (pipe.arrived consumed) (contents pipe.lost) ((Message.payloadOf message).toList ++ contents (wire.map Prod.snd))
      (emitted.map ChunkedData.codec.encode) := by
  rw [Accounted, next, contents_wire] at accounted
  exact accounted

theorem InOrder.of_groups {first second : Chunker (Session S)} {pieces : Nat → List Bytes}
    (inOrder : InOrder pieces consumed done first) (same : second.chunkGroups = first.chunkGroups) :
    InOrder pieces consumed done second := by
  obtain ⟨⟨genuine, groups, nodup, whole, few⟩, keys, current, ascending, all⟩ := inOrder
  rw [← same] at groups few keys current
  exact ⟨⟨genuine, groups, nodup, whole, few⟩, keys, current, ascending, all⟩

theorem Flowing.deliver (flowing : Flowing cipher writer reader id messages pipe) (seals : cipher.Seals writer reader)
    {datagram : Bytes} {message : Message} {wire : List (Bytes × Message)}
    (arrives : pipe.wire = (datagram, message) :: wire) :
    Flowing cipher writer reader id messages { pipe with wire, reader := Pipe.deliver cipher pipe.reader datagram } := by
  obtain ⟨nonces, carrying⟩ := flowing.carrying
  obtain ⟨emitted, remaining, consumed, done, cutting, accounted, joining⟩ := flowing.conveying
  have shape := carrying.wire
  rw [arrives] at shape
  cases shape with
  | @cons nonce _ nonces _ carried rest =>
    obtain ⟨session, result, transport, queue, named, life⟩ := deliver_carried seals carried carrying.readerId
      carrying.readerState carrying.admits
    rw [result]
    refine ⟨flowing.given, ⟨nonces, ?_⟩, emitted, remaining, consumed, done,
      ⟨cutting.chunkSize, cutting.currentGroup, cutting.bounded, cutting.few, cutting.cut, cutting.outbox⟩, ?_,
      ⟨joining.fits, InOrder.of_groups joining.inOrder rfl, joining.output⟩⟩
    · obtain ⟨first, rising⟩ := List.pairwise_cons.mp carrying.rising
      refine ⟨carrying.writerId, carrying.writerAlive, carrying.writerState, named.trans carrying.readerId,
        life.trans carrying.readerAlive, ?_, rest, rising, ?_⟩
      · rw [transport]
        exact carrying.readerState
      · intro seen member later inside
        rw [transport] at member
        rcases Finset.mem_insert.mp (Window.trim_subset _ _ member) with same | old
        · rw [same]
          exact first later inside
        · exact carrying.unseen seen old later (List.mem_cons_of_mem nonce inside)
    · have delivered := (accounted.head arrives).deliver
      rw [arrived, List.append_assoc, ← queue] at delivered
      exact delivered

theorem Flowing.lose (flowing : Flowing cipher writer reader id messages pipe) {datagram : Bytes} {message : Message}
    {wire : List (Bytes × Message)} (next : pipe.wire = (datagram, message) :: wire) :
    Flowing cipher writer reader id messages { pipe with wire, lost := pipe.lost ++ [message] } := by
  obtain ⟨nonces, carrying⟩ := flowing.carrying
  obtain ⟨emitted, remaining, consumed, done, cutting, accounted, joining⟩ := flowing.conveying
  have shape := carrying.wire
  rw [next] at shape
  cases shape with
  | @cons nonce _ nonces _ carried rest =>
    refine ⟨flowing.given, ⟨nonces, carrying.writerId, carrying.writerAlive, carrying.writerState, carrying.readerId,
      carrying.readerAlive, carrying.readerState, rest, (List.pairwise_cons.mp carrying.rising).2, ?_⟩,
      emitted, remaining, consumed, done,
      ⟨cutting.chunkSize, cutting.currentGroup, cutting.bounded, cutting.few, cutting.cut, cutting.outbox⟩, ?_,
      ⟨joining.fits, joining.inOrder, joining.output⟩⟩
    · intro seen member later inside
      exact carrying.unseen seen member later (List.mem_cons_of_mem nonce inside)
    · have missed := (accounted.head next).lose
      rw [← contents_singleton, ← contents_append] at missed
      exact missed

theorem recvStep_alive (cipher : Cipher S) (handle : Chunker (Session S)) (alive : handle.delegate.dead = false) (receiving : Uuid)
    (waker : Waker) :
    (∃ data rest, handle.completedChunks = data :: rest ∧
      handle.recvStep (bidirectionalSession cipher receiving waker) =
        .ok ({ handle with completedChunks := rest }, some (.ready (.ok data)))) ∨
    (handle.completedChunks = [] ∧ handle.delegate.messages = [] ∧
      handle.recvStep (bidirectionalSession cipher receiving waker) =
        .ok ({ handle with delegate := { handle.delegate with
          wakers := handle.delegate.wakers.insert receiving waker } }, some .pending)) ∨
    (∃ bytes rest, handle.completedChunks = [] ∧ handle.delegate.messages = bytes :: rest ∧
      handle.recvStep (bidirectionalSession cipher receiving waker) =
        (do return (← Chunker.receive { handle with delegate := { handle.delegate with
          messages := rest
          wakers := handle.delegate.wakers.erase receiving } } bytes, none))) := by
  unfold Chunker.recvStep Chunker.nextReadyChunk
  cases completed : handle.completedChunks with
  | cons data rest => exact .inl ⟨data, rest, rfl, rfl⟩
  | nil =>
    cases queued : handle.delegate.messages with
    | nil =>
      refine .inr (.inl ⟨rfl, rfl, ?_⟩)
      simp [bidirectionalSession, Session.isDead, Session.poll, alive, queued, completed, bind, Except.bind, pure, Except.pure]
    | cons bytes rest =>
      refine .inr (.inr ⟨bytes, rest, rfl, rfl, ?_⟩)
      simp [bidirectionalSession, Session.isDead, Session.poll, alive, queued, completed, bind, Except.bind]

theorem Flowing.receive (flowing : Flowing cipher writer reader id messages pipe) {bytes : Bytes} {rest : List Bytes}
    (completed : pipe.reader.completedChunks = []) (queued : pipe.reader.delegate.messages = bytes :: rest)
    (session : Session S) (waiting : session.messages = rest) (named : session.id = pipe.reader.delegate.id)
    (life : session.dead = pipe.reader.delegate.dead) (transport : session.transport = pipe.reader.delegate.transport) :
    ∃ handle, Chunker.receive { pipe.reader with delegate := session } bytes = .ok handle ∧
      handle.delegate = session ∧ Flowing cipher writer reader id messages { pipe with reader := handle } := by
  obtain ⟨nonces, writerId, writerAlive, writerState, readerId, readerAlive, readerState, wire, rising, unseen⟩ :=
    flowing.carrying
  obtain ⟨emitted, remaining, consumed, done, cutting, accounted, joining⟩ := flowing.conveying
  have log := accounted.order
  rw [arrived, queued, List.append_assoc] at log
  have valid : ∀ chunk ∈ emitted, _ := fun chunk member =>
    cutting.valid flowing.given (List.mem_append_left remaining member)
  obtain ⟨chunk, rfl, extended⟩ := Link.next_chunk joining.fits (fun chunk member => (valid chunk member).2.1) log
  obtain ⟨genuine, fits, -⟩ := valid chunk (extended.subset (by simp))
  have later : ∀ other ∈ consumed, Before other chunk := fun other member =>
    (List.pairwise_append.mp (cutting.ordered.sublist extended)).2.2 other member chunk (List.mem_singleton_self chunk)
  have current : InOrder (piecesOf 4096 messages) consumed done { pipe.reader with delegate := session } :=
    InOrder.of_groups joining.inOrder rfl
  obtain ⟨handle, more, added, after, finished⟩ := current.addChunk genuine later
  have same := (Link.addChunk_keeps added).delegate
  refine ⟨handle, ?_, same, flowing.given, ⟨nonces, writerId, writerAlive, writerState, ?_, ?_, ?_, wire, rising, ?_⟩,
    emitted, remaining, consumed ++ [chunk], done ++ more,
    ⟨cutting.chunkSize, cutting.currentGroup, cutting.bounded, cutting.few, cutting.cut, cutting.outbox⟩, ?_, ?_, after, ?_⟩
  · rw [Chunker.receive, ChunkedData.codec.deserialize_encode fits]
    exact added
  · rw [same]
    exact named.trans readerId
  · rw [same]
    exact life.trans readerAlive
  · rw [same, transport]
    exact readerState
  · rw [same, transport]
    exact unseen
  · have moved : arrived { pipe with reader := handle } (consumed ++ [chunk]) = pipe.arrived consumed := by
      simp [arrived, same, queued, waiting]
    rw [Accounted, moved]
    exact accounted
  · intro other member
    rcases List.mem_append.mp member with earlier | now
    · exact joining.fits other earlier
    · exact List.mem_singleton.mp now ▸ fits
  · have output := joining.output
    rw [completed, List.append_nil] at output
    rw [finished, completed, List.nil_append, List.map_append, output]

/-- `recv` touches only the reader's end, and takes up what is there to take. -/
structure Advances (pipe next : Pipe S) : Prop where
  writer : next.writer = pipe.writer
  outbox : next.outbox = pipe.outbox
  sent : next.sent = pipe.sent
  wire : next.wire = pipe.wire
  lost : next.lost = pipe.lost
  progress : pipe.reader.delegate.messages = [] ∧ pipe.reader.completedChunks = [] ∨
    next.reader.delegate.messages.length < pipe.reader.delegate.messages.length ∨
    next.reader.delegate.messages = pipe.reader.delegate.messages ∧
      next.reader.completedChunks.length < pipe.reader.completedChunks.length

theorem Flowing.recv (flowing : Flowing cipher writer reader id messages pipe) (receiving : Uuid) (waker : Waker) :
    ∃ next, pipe.step cipher (.recv receiving waker) = some next ∧ Flowing cipher writer reader id messages next ∧
      Advances pipe next := by
  obtain ⟨nonces, carrying⟩ := flowing.carrying
  rcases recvStep_alive cipher pipe.reader carrying.readerAlive receiving waker with ⟨data, rest, completed, stepped⟩ |
    ⟨completed, queued, stepped⟩ | ⟨bytes, rest, completed, queued, stepped⟩
  · obtain ⟨emitted, remaining, consumed, done, cutting, accounted, joining⟩ := flowing.conveying
    refine ⟨{ pipe with reader := { pipe.reader with completedChunks := rest }, returned := pipe.returned ++ [data] },
      by simp only [step, stepped], ⟨flowing.given, ⟨nonces, ?_⟩, emitted, remaining, consumed, done,
      ⟨cutting.chunkSize, cutting.currentGroup, cutting.bounded, cutting.few, cutting.cut, cutting.outbox⟩, accounted,
      joining.fits, InOrder.of_groups joining.inOrder rfl, ?_⟩, rfl, rfl, rfl, rfl, rfl, .inr (.inr ⟨rfl, ?_⟩)⟩
    · exact ⟨carrying.writerId, carrying.writerAlive, carrying.writerState, carrying.readerId, carrying.readerAlive,
        carrying.readerState, carrying.wire, carrying.rising, carrying.unseen⟩
    · have output := joining.output
      rw [completed] at output
      simpa only [List.append_assoc, List.singleton_append] using output
    · simp [completed]
  · obtain ⟨emitted, remaining, consumed, done, cutting, accounted, joining⟩ := flowing.conveying
    refine ⟨{ pipe with reader := { pipe.reader with delegate := { pipe.reader.delegate with
        wakers := pipe.reader.delegate.wakers.insert receiving waker } } },
      by simp only [step, stepped], ⟨flowing.given, ⟨nonces, ?_⟩, emitted, remaining, consumed, done,
      ⟨cutting.chunkSize, cutting.currentGroup, cutting.bounded, cutting.few, cutting.cut, cutting.outbox⟩, accounted,
      joining.fits, InOrder.of_groups joining.inOrder rfl, joining.output⟩, rfl, rfl, rfl, rfl, rfl,
      .inl ⟨queued, completed⟩⟩
    exact ⟨carrying.writerId, carrying.writerAlive, carrying.writerState, carrying.readerId, carrying.readerAlive,
      carrying.readerState, carrying.wire, carrying.rising, carrying.unseen⟩
  · obtain ⟨handle, received, same, after⟩ := flowing.receive completed queued { pipe.reader.delegate with
      messages := rest
      wakers := pipe.reader.delegate.wakers.erase receiving } rfl rfl rfl rfl
    rw [received] at stepped
    refine ⟨{ pipe with reader := handle }, by simp only [step, stepped, bind, Except.bind, pure, Except.pure], after,
      rfl, rfl, rfl, rfl, rfl, .inr (.inl ?_)⟩
    simp [same, queued]

/-- One step, with a nonce to spare, keeps the invariant and uses at most one nonce. -/
theorem Flowing.step (flowing : Flowing cipher writer reader id messages pipe) (seals : cipher.Seals writer reader)
    (room : pipe.writer.delegate.transport.nextNonce < 2 ^ 64 - 1) {label : Label}
    (stepped : pipe.step cipher label = some next) (given : next.sent <+: messages) :
    Flowing cipher writer reader id messages next ∧
      next.writer.delegate.transport.nextNonce ≤ pipe.writer.delegate.transport.nextNonce + 1 := by
  cases label with
  | send data =>
    simp only [Pipe.step] at stepped
    split at stepped
    next idle =>
      split at stepped
      next handle outbox prepared =>
        cases stepped
        obtain ⟨emitted, remaining, consumed, done, cutting, accounted, joining⟩ := flowing.conveying
        refine ⟨flowing.send idle prepared given, ?_⟩
        rw [(cutting.send idle prepared).1]
        exact Nat.le_succ _
      next => cases stepped
    next => cases stepped
  | transmit =>
    simp only [Pipe.step] at stepped
    split at stepped
    next => cases stepped
    next data outbox pending =>
      cases stepped
      obtain ⟨after, used, -⟩ := flowing.transmit seals room pending
      exact ⟨after, used.le⟩
  | keepalive =>
    cases stepped
    obtain ⟨after, used⟩ := flowing.keepalive seals room
    exact ⟨after, used.le⟩
  | deliver =>
    simp only [Pipe.step] at stepped
    split at stepped
    next => cases stepped
    next datagram message wire arrives =>
      cases stepped
      exact ⟨flowing.deliver seals arrives, Nat.le_succ _⟩
  | lose =>
    simp only [Pipe.step] at stepped
    split at stepped
    next => cases stepped
    next datagram message wire first =>
      cases stepped
      exact ⟨flowing.lose first, Nat.le_succ _⟩
  | recv receiving waker =>
    obtain ⟨after, received, still, advances⟩ := flowing.recv receiving waker
    cases received.symm.trans stepped
    rw [advances.writer]
    exact ⟨still, Nat.le_succ _⟩

theorem step_sent {label : Label} (stepped : pipe.step cipher label = some next) : pipe.sent <+: next.sent := by
  cases label with
  | send data =>
    simp only [step] at stepped
    split at stepped
    · split at stepped
      · cases stepped
        exact List.prefix_append _ _
      · cases stepped
    · cases stepped
  | transmit =>
    simp only [step, transmit, emit] at stepped
    split at stepped
    · cases stepped
    · cases stepped
      split
      · exact List.prefix_refl _
      · exact List.prefix_refl _
  | keepalive =>
    cases stepped
    rw [Pipe.keepalive]
    split
    · exact List.prefix_refl _
    · exact List.prefix_refl _
  | deliver =>
    simp only [step] at stepped
    split at stepped
    · cases stepped
    · cases stepped
      exact List.prefix_refl _
  | lose =>
    simp only [step] at stepped
    split at stepped
    · cases stepped
    · cases stepped
      exact List.prefix_refl _
  | recv receiving waker =>
    simp only [step] at stepped
    split at stepped
    · cases stepped
      exact List.prefix_refl _
    · cases stepped
      exact List.prefix_refl _
    · cases stepped

theorem run_sent {labels : List Label} (reached : Runs.run (step cipher) pipe labels = some next) : pipe.sent <+: next.sent :=
  persists (fun _ _ _ before stepped => List.IsPrefix.trans before (step_sent stepped)) (List.prefix_refl _) reached

theorem Flowing.run (flowing : Flowing cipher writer reader id messages pipe) (seals : cipher.Seals writer reader)
    {labels : List Label} (room : pipe.writer.delegate.transport.nextNonce + labels.length < 2 ^ 64)
    (reached : Runs.run (Pipe.step cipher) pipe labels = some next) (given : next.sent <+: messages) :
    Flowing cipher writer reader id messages next ∧
      next.writer.delegate.transport.nextNonce ≤ pipe.writer.delegate.transport.nextNonce + labels.length := by
  induction labels generalizing pipe with
  | nil =>
    cases reached
    exact ⟨flowing, le_rfl⟩
  | cons label labels ih =>
    rw [List.length_cons] at room ⊢
    obtain ⟨middle, stepped, rest⟩ := run_cons reached
    obtain ⟨after, used⟩ := flowing.step seals (by omega) stepped (List.IsPrefix.trans (run_sent rest) given)
    obtain ⟨final, total⟩ := ih after (by omega) rest
    exact ⟨final, by omega⟩

theorem Cutting.nodup (cutting : Cutting pipe emitted remaining) : (emitted.map ChunkedData.codec.encode).Nodup := by
  have valid : ∀ chunk ∈ emitted, ChunkedData.codec.Fits chunk := fun chunk member =>
    (cutting.valid (List.prefix_refl _) (List.mem_append_left remaining member)).2.1
  refine List.Nodup.map_on ?_ (cutting.ordered.imp ?_)
  · intro first one second two same
    have decoded := congrArg ChunkedData.codec.deserialize same
    rw [ChunkedData.codec.deserialize_encode (valid first one), ChunkedData.codec.deserialize_encode (valid second two)]
      at decoded
    exact Option.some.inj decoded
  · intro first second before same
    rw [same] at before
    exact before.elim (Nat.lt_irrefl _) fun later => Nat.lt_irrefl _ later.2

theorem mem_contents {lost : List Message} {data : Bytes} : data ∈ contents lost ↔ .payload data ∈ lost := by
  rw [contents, List.mem_filterMap]
  constructor
  · intro found
    obtain ⟨message, member, same⟩ := found
    cases message with
    | keepalive => cases same
    | payload other =>
      cases same
      exact member
  · intro member
    exact ⟨.payload data, member, rfl⟩

/-- Of a drained pipe, the reader's handle has consumed what the network did not lose. -/
theorem Accounted.consumed_iff (accounted : Accounted pipe emitted consumed) (cutting : Cutting pipe emitted remaining)
    (fits : ∀ chunk ∈ consumed, ChunkedData.codec.Fits chunk) (drained : Drained pipe) {chunk : ChunkedData}
    (member : chunk ∈ cut 4096 0 pipe.sent) :
    chunk ∈ consumed ↔ .payload (ChunkedData.codec.encode chunk) ∉ pipe.lost := by
  obtain ⟨outbox, wire, queued, -⟩ := drained
  have nothing : remaining = [] := by
    rw [cutting.outbox] at outbox
    exact List.map_eq_nil_iff.mp outbox
  have all := cutting.cut
  rw [nothing, List.append_nil] at all
  rw [← all] at member
  have fates := accounted.fates
  rw [arrived, queued, wire, List.append_nil, List.map_nil] at fates
  simp only [contents, List.filterMap_nil, List.append_nil] at fates
  have fit := (cutting.valid (List.prefix_refl _) (List.mem_append_left remaining member)).2.1
  have apart := (List.nodup_append.mp (fates.nodup_iff.mpr cutting.nodup)).2.2
  have somewhere := fates.mem_iff.mpr (List.mem_map_of_mem member)
  rw [← mem_contents]
  constructor
  · intro taken missing
    exact apart _ (List.mem_map_of_mem taken) _ missing rfl
  · intro present
    rcases List.mem_append.mp somewhere with taken | missing
    · obtain ⟨other, inside, same⟩ := List.mem_map.mp taken
      have decoded := congrArg ChunkedData.codec.deserialize same
      rw [ChunkedData.codec.deserialize_encode (fits other inside), ChunkedData.codec.deserialize_encode fit] at decoded
      exact Option.some.inj decoded ▸ inside
    · exact absurd missing present

theorem Flowing.returned_eq (flowing : Flowing cipher writer reader id pipe.sent pipe) (drained : Drained pipe) :
    pipe.returned = (pipe.sent.zipIdx.filter (survives pipe.lost)).map Prod.fst := by
  obtain ⟨emitted, remaining, consumed, done, cutting, accounted, joining⟩ := flowing.conveying
  have output := joining.output
  rw [drained.2.2.2, List.append_nil] at output
  rw [output]
  apply joining.inOrder.completed_eq (by decide)
  intro position data sent
  have decoded := filterMap_encoded consumed joining.fits
  have genuine := joining.inOrder.genuine
  rw [← decoded] at genuine ⊢
  rw [whole_iff_arrivesWhole (by decide) genuine sent, arrivesWhole, survives, decoded]
  simp only [Bool.and_eq_true, List.all_eq_true, decide_eq_true_eq]
  apply and_congr_right
  intro nonempty
  apply forall₂_congr
  intro chunk member
  exact accounted.consumed_iff cutting joining.fits drained (mem_cut.mpr ⟨position, data, sent, member⟩)

/-- The steps that neither send anything new nor lose anything. -/
def Label.quiet : Label → Bool
  | .transmit | .deliver | .recv _ _ => true
  | .send _ | .keepalive | .lose => false

/-- The pipe can come to rest in the final state by quiet steps. -/
def Settles (cipher : Cipher S) (pipe final : Pipe S) : Prop :=
  ∃ labels : List Label, labels.all Label.quiet = true ∧ Runs.run (step cipher) pipe labels = some final ∧
    final.sent = pipe.sent ∧ final.lost = pipe.lost

theorem Settles.refl (cipher : Cipher S) (pipe : Pipe S) : Settles cipher pipe pipe := ⟨[], rfl, rfl, rfl, rfl⟩

theorem Settles.cons (label : Label) {final : Pipe S} (quiet : label.quiet = true)
    (stepped : pipe.step cipher label = some next) (sent : next.sent = pipe.sent) (lost : next.lost = pipe.lost)
    (rest : Settles cipher next final) : Settles cipher pipe final := by
  obtain ⟨labels, all, reached, sameSent, sameLost⟩ := rest
  refine ⟨label :: labels, ?_, ?_, sameSent.trans sent, sameLost.trans lost⟩
  · rw [List.all_cons, quiet, all]
    rfl
  · rw [Runs.run, List.foldlM_cons, stepped]
    exact reached

theorem Settles.trans {final : Pipe S} (first : Settles cipher pipe next) (second : Settles cipher next final) :
    Settles cipher pipe final := by
  obtain ⟨labels, all, reached, sent, lost⟩ := first
  obtain ⟨more, allMore, further, sameSent, sameLost⟩ := second
  refine ⟨labels ++ more, ?_, ?_, sameSent.trans sent, sameLost.trans lost⟩
  · rw [List.all_append, all, allMore]
    rfl
  · rw [run_append reached]
    exact further

theorem Flowing.transmits (flowing : Flowing cipher writer reader id messages pipe) (seals : cipher.Seals writer reader)
    (room : pipe.writer.delegate.transport.nextNonce + pipe.outbox.length < 2 ^ 64) :
    ∃ final, Settles cipher pipe final ∧ Flowing cipher writer reader id messages final ∧ final.outbox = [] := by
  induction pending : pipe.outbox generalizing pipe with
  | nil => exact ⟨pipe, .refl cipher pipe, flowing, pending⟩
  | cons data outbox ih =>
    rw [pending, List.length_cons] at room
    obtain ⟨after, used, shorter, sent, lost⟩ := flowing.transmit seals (by omega) pending
    obtain ⟨final, settles, done, empty⟩ := ih after (by rw [used, shorter]; omega) shorter
    exact ⟨final, settles.cons .transmit rfl (by simp only [Pipe.step, pending]) sent lost, done, empty⟩

theorem Flowing.delivers (flowing : Flowing cipher writer reader id messages pipe) (seals : cipher.Seals writer reader)
    (idle : pipe.outbox = []) :
    ∃ final, Settles cipher pipe final ∧ Flowing cipher writer reader id messages final ∧ final.outbox = [] ∧
      final.wire = [] := by
  induction onWire : pipe.wire generalizing pipe with
  | nil => exact ⟨pipe, .refl cipher pipe, flowing, idle, onWire⟩
  | cons entry wire ih =>
    obtain ⟨final, settles, done, empty⟩ := ih (flowing.deliver seals onWire) idle rfl
    have stepped : pipe.step cipher .deliver =
        some { pipe with wire, reader := Pipe.deliver cipher pipe.reader entry.1 } := by
      simp only [Pipe.step, onWire]
    exact ⟨final, settles.cons .deliver rfl stepped rfl rfl, done, empty⟩

theorem Flowing.reads {pipe : Pipe S} (flowing : Flowing cipher writer reader id messages pipe) (idle : pipe.outbox = [])
    (clear : pipe.wire = []) :
    ∃ final, Settles cipher pipe final ∧ Drained final := by
  obtain ⟨next, stepped, after, advances⟩ := flowing.recv 0 0
  rcases advances.progress with ⟨queued, completed⟩ | fewer
  · exact ⟨pipe, .refl cipher pipe, idle, clear, queued, completed⟩
  · obtain ⟨final, settles, drained⟩ := after.reads (advances.outbox.trans idle) (advances.wire.trans clear)
    exact ⟨final, settles.cons (.recv 0 0) rfl stepped advances.sent advances.lost, drained⟩
termination_by (pipe.reader.delegate.messages.length, pipe.reader.completedChunks.length)
decreasing_by
  rcases fewer with shorter | ⟨same, shorter⟩
  · exact Prod.Lex.left _ _ shorter
  · rw [same]
    exact Prod.Lex.right _ shorter

end

variable {cipher : Cipher S} {writer reader : S} {labels : List Label} {pipe : Pipe S}

/-- When everything is drained, `recv` has returned exactly the messages that are not
empty and of which no chunk was lost, in the order in which they were sent. -/
theorem exact_flow (seals : cipher.Seals writer reader) (id : SessionId) (writerAddr readerAddr : SocketAddr)
    (few : labels.length < 2 ^ 64)
    (reached : run (step cipher) (start id writerAddr readerAddr writer reader) labels = some pipe) (drained : Drained pipe) :
    pipe.returned = (pipe.sent.zipIdx.filter (survives pipe.lost)).map Prod.fst := by
  have flowing := Flowing.start cipher writer reader id writerAddr readerAddr pipe.sent
  have first : (start id writerAddr readerAddr writer reader).writer.delegate.transport.nextNonce = 0 := rfl
  exact (flowing.run seals (by omega) reached (List.prefix_refl _)).1.returned_eq drained

private def lossy : List Label :=
  [.send ⟨[1, 2], by decide⟩, .transmit, .keepalive, .send ⟨[], by decide⟩, .send ⟨[3], by decide⟩, .transmit, .lose,
    .deliver, .deliver, .recv 0 0, .recv 0 0]

theorem exact_flow_lossy :
    ∃ pipe, run (step tagCipher) (start 5 (.v4 0 0) (.v4 0 1) () ()) lossy = some pipe ∧ Drained pipe ∧
      pipe.sent = [[1, 2], [], [3]] ∧ pipe.returned = [[3]] := by
  have rest : (run (step tagCipher) (start 5 (.v4 0 0) (.v4 0 1) () ()) lossy).map (fun pipe =>
      (pipe.outbox, pipe.wire.length, pipe.reader.delegate.messages, pipe.reader.completedChunks)) = some ([], 0, [], []) := by
    decide +kernel
  have past : (run (step tagCipher) (start 5 (.v4 0 0) (.v4 0 1) () ()) lossy).map (fun pipe => (pipe.sent, pipe.lost)) =
      some ([[1, 2], [], [3]], [.payload (ChunkedData.codec.encode ⟨0, 0, 1, [1, 2]⟩)]) := by
    decide +kernel
  obtain ⟨pipe, reached, still⟩ := Option.map_eq_some_iff.mp rest
  rw [reached] at past
  simp only [Prod.mk.injEq, Option.map_some, Option.some.injEq] at still past
  have drained : Drained pipe := ⟨still.1, List.length_eq_zero_iff.mp still.2.1, still.2.2⟩
  have exact := exact_flow tagCipher_seals 5 (.v4 0 0) (.v4 0 1) (by decide) reached drained
  rw [past.1, past.2] at exact
  exact ⟨pipe, reached, drained, past.1, exact.trans (by decide +kernel)⟩

/-- Whatever was sent and lost so far, once nothing more is lost the handle receives
all the rest. -/
theorem flow_settles (seals : cipher.Seals writer reader) (id : SessionId) (writerAddr readerAddr : SocketAddr)
    (reached : run (step cipher) (start id writerAddr readerAddr writer reader) labels = some pipe)
    (few : labels.length + pipe.outbox.length < 2 ^ 64) :
    ∃ final, Settles cipher pipe final ∧ Drained final := by
  have flowing := Flowing.start cipher writer reader id writerAddr readerAddr pipe.sent
  have first : (start id writerAddr readerAddr writer reader).writer.delegate.transport.nextNonce = 0 := rfl
  obtain ⟨now, used⟩ := flowing.run seals (by omega) reached (List.prefix_refl _)
  obtain ⟨emptied, toEmptied, afterEmptied, idle⟩ := now.transmits seals (by omega)
  obtain ⟨delivered, toDelivered, afterDelivered, still, clear⟩ := afterEmptied.delivers seals idle
  obtain ⟨final, toFinal, drained⟩ := afterDelivered.reads still clear
  exact ⟨final, (toEmptied.trans toDelivered).trans toFinal, drained⟩

theorem flow_settles_interrupted :
    ∃ pipe, run (step tagCipher) (start 5 (.v4 0 0) (.v4 0 1) () ()) (lossy.take 8) = some pipe ∧ ¬ Drained pipe ∧
      ∃ final, Settles tagCipher pipe final ∧ Drained final := by
  have facts : (run (step tagCipher) (start 5 (.v4 0 0) (.v4 0 1) () ()) (lossy.take 8)).map (fun pipe =>
      (pipe.outbox, pipe.wire.length)) = some ([], 1) := by
    decide +kernel
  obtain ⟨pipe, reached, same⟩ := Option.map_eq_some_iff.mp facts
  obtain ⟨outbox, wire⟩ := Prod.mk.inj same
  refine ⟨pipe, reached, ?_, flow_settles tagCipher_seals 5 (.v4 0 0) (.v4 0 1) reached ?_⟩
  · intro drained
    rw [drained.2.1] at wire
    cases wire
  · rw [outbox]
    decide

end Pipe
end Veq
