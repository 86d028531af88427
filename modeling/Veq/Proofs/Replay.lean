import Veq.SnowTypes
import Mathlib.Data.List.Nodup

/-! The lossy transport against a network that replays, reorders, drops and
forges packets. The nonce of a packet enters the receiver's window whether or not
the packet authenticates, which is what replay protection rests on and also what
lets a forged packet shut genuine ones out. -/

namespace Veq.LossyTransportState
open Rust Bincode

variable {S : Type} (cipher : Cipher S) (state : LossyTransportState S)

/-- A successful write: its nonce, what went in and the ciphertext that came out. -/
structure Sealed where
  nonce : Nat
  plaintext : Bytes
  ciphertext : Bytes
deriving DecidableEq, Repr

def written? (payload : Bytes) (capacity : Nat) : Option Sealed :=
  match (state.writeMessage cipher payload capacity).2 with
  | .ok _ => (cipher.writeMessage state.stateless state.nextNonce payload capacity).map
      fun ciphertext => ⟨state.nextNonce, payload, ciphertext⟩
  | .error _ => none

def read? (packet : Bytes) (capacity : Nat) : Option (Nat × Bytes) :=
  match (state.readMessage cipher packet capacity).2 with
  | .ok plaintext => (Nonced.codec.deserialize packet).map fun nonced => (nonced.nonce, plaintext)
  | .error _ => none

theorem writeMessage_state (payload : Bytes) (capacity : Nat) :
    ∃ nextNonce ≥ state.nextNonce, (state.writeMessage cipher payload capacity).1 = { state with nextNonce } := by
  unfold writeMessage
  split
  next => exact ⟨state.nextNonce, Nat.le_refl _, rfl⟩
  next nextNonce added =>
    have := (addU64_ok added).1
    split
    · exact ⟨nextNonce, by omega, rfl⟩
    · exact ⟨nextNonce, by omega, rfl⟩

theorem written?_some {payload : Bytes} {capacity : Nat} {record : Sealed}
    (written : state.written? cipher payload capacity = some record) :
    record.nonce = state.nextNonce ∧ record.nonce < 2 ^ 64 ∧ record.plaintext = payload ∧
      cipher.writeMessage state.stateless state.nextNonce payload capacity = some record.ciphertext ∧
      (state.writeMessage cipher payload capacity).1 = { state with nextNonce := state.nextNonce + 1 } := by
  unfold written? writeMessage at written
  unfold writeMessage
  split at written
  next result succeeded =>
    obtain ⟨ciphertext, encrypted, rfl⟩ := Option.map_eq_some_iff.mp written
    cases added : addU64 state.nextNonce 1 with
    | error panic => simp [added] at succeeded
    | ok nextNonce =>
      obtain ⟨rfl, bounded⟩ := addU64_ok added
      exact ⟨rfl, by simp only; omega, rfl, encrypted, by simp [encrypted]⟩
  next => cases written

/-- Every packet that decodes is shown to the window, authentic or not. -/
theorem readMessage_state (packet : Bytes) (capacity : Nat) :
    (state.readMessage cipher packet capacity).1 = { state with
      receivedNonces := match Nonced.codec.deserialize packet with
        | none => state.receivedNonces
        | some nonced => Window.visit state.size state.receivedNonces nonced.nonce } := by
  unfold readMessage
  cases Nonced.codec.deserialize packet with
  | none => rfl
  | some nonced =>
    by_cases refused : Window.Refuses state.receivedNonces nonced.nonce
    · simp [Window.visit, refused]
    · simp only [refused, ↓reduceIte, Window.visit]
      split <;> rfl

theorem read?_some {packet : Bytes} {capacity : Nat} {nonce : Nat} {plaintext : Bytes}
    (accepted : state.read? cipher packet capacity = some (nonce, plaintext)) :
    ∃ nonced, Nonced.codec.deserialize packet = some nonced ∧ nonced.nonce = nonce ∧
      ¬ Window.Refuses state.receivedNonces nonce ∧
      cipher.readMessage state.stateless nonce nonced.payload capacity = some plaintext := by
  unfold read? readMessage at accepted
  cases decoded : Nonced.codec.deserialize packet with
  | none => simp [decoded] at accepted
  | some nonced =>
    by_cases refused : Window.Refuses state.receivedNonces nonced.nonce
    · simp [decoded, refused] at accepted
    · cases opened : cipher.readMessage state.stateless nonced.nonce nonced.payload capacity with
      | none => simp [decoded, refused, opened] at accepted
      | some result =>
        simp only [decoded, refused, ↓reduceIte, opened, Option.map_some, Option.some.injEq, Prod.mk.injEq] at accepted
        obtain ⟨rfl, rfl⟩ := accepted
        exact ⟨nonced, rfl, rfl, refused, opened⟩

/-- Both ends of one direction of a transport, with the successful writes of one
end and the successful reads of the other. -/
structure Ends (S : Type) where
  writer : LossyTransportState S
  reader : LossyTransportState S
  written : List Sealed
  received : List (Nat × Bytes)

inductive Event where
  | write (payload : Bytes) (capacity : Nat)
  | read (packet : Bytes) (capacity : Nat)
deriving DecidableEq, Repr

namespace Ends

def start (writer reader : S) (size : Nat) : Ends S :=
  ⟨.new writer size, .new reader size, [], []⟩

def step (ends : Ends S) : Event → Ends S
  | .write payload capacity =>
    { ends with
      writer := (ends.writer.writeMessage cipher payload capacity).1
      written := ends.written ++ (ends.writer.written? cipher payload capacity).toList }
  | .read packet capacity =>
    { ends with
      reader := (ends.reader.readMessage cipher packet capacity).1
      received := ends.received ++ (ends.reader.read? cipher packet capacity).toList }

def run (ends : Ends S) (events : List Event) : Ends S := events.foldl (step cipher) ends

/-- The cipher is ideal for one read: if it opens the packet's ciphertext at the
packet's nonce, the other end has written that ciphertext at that nonce, and the
result is what was written. -/
def Ideal (ends : Ends S) : Event → Prop
  | .write _ _ => True
  | .read packet capacity => ∀ nonced ∈ Nonced.codec.deserialize packet,
      ∀ plaintext ∈ cipher.readMessage ends.reader.stateless nonced.nonce nonced.payload capacity,
        (⟨nonced.nonce, plaintext, nonced.payload⟩ : Sealed) ∈ ends.written

instance (ends : Ends S) : (event : Event) → Decidable (ends.Ideal cipher event)
  | .write _ _ => inferInstanceAs (Decidable True)
  | .read _ _ => inferInstanceAs (Decidable (∀ nonced ∈ _, ∀ plaintext ∈ _, _))

def IdealRun (ends : Ends S) : List Event → Prop
  | [] => True
  | event :: events => ends.Ideal cipher event ∧ IdealRun (ends.step cipher event) events

instance decidableIdealRun (ends : Ends S) : (events : List Event) → Decidable (ends.IdealRun cipher events)
  | [] => inferInstanceAs (Decidable True)
  | event :: events =>
    have := decidableIdealRun (ends.step cipher event) events
    inferInstanceAs (Decidable (_ ∧ _))

/-- What holds of both ends after any run. A nonce that was accepted is refused
from then on, although the window may have forgotten it. -/
structure Sound (ends : Ends S) : Prop where
  used : ∀ record ∈ ends.written, record.nonce < ends.writer.nextNonce
  rising : (ends.written.map Sealed.nonce).Pairwise (· < ·)
  refused : ∀ packet ∈ ends.received, Window.Refuses ends.reader.receivedNonces packet.1
  once : (ends.received.map Prod.fst).Nodup
  genuine : ∀ packet ∈ ends.received, ∃ record ∈ ends.written, record.nonce = packet.1 ∧ record.plaintext = packet.2
  bounded : ends.reader.receivedNonces.card ≤ ends.reader.size
  ordered : ends.reader.size = 1 → (ends.received.map Prod.fst).Pairwise (· < ·)

theorem Sound.start (writer reader : S) (size : Nat) : Sound (start writer reader size) := by
  constructor <;> simp [Ends.start, LossyTransportState.new]

variable {cipher} {ends : Ends S}

theorem Sound.write (sound : ends.Sound) (payload : Bytes) (capacity : Nat) :
    (ends.step cipher (.write payload capacity)).Sound := by
  obtain ⟨nextNonce, later, moved⟩ := ends.writer.writeMessage_state cipher payload capacity
  cases written : ends.writer.written? cipher payload capacity with
  | none =>
    simp only [step, written, Option.toList_none, List.append_nil, moved]
    exact ⟨fun record member => (sound.used record member).trans_le later, sound.rising, sound.refused, sound.once,
      sound.genuine, sound.bounded, sound.ordered⟩
  | some record =>
    obtain ⟨nonce, -, -, -, advanced⟩ := ends.writer.written?_some cipher written
    simp only [step, written, Option.toList_some, advanced]
    refine ⟨?_, ?_, sound.refused, sound.once, ?_, sound.bounded, sound.ordered⟩
    · intro other member
      rcases List.mem_append.mp member with member | member
      · exact (sound.used other member).trans (Nat.lt_succ_self _)
      · rw [List.mem_singleton.mp member, nonce]
        exact Nat.lt_succ_self _
    · rw [List.map_append, List.pairwise_append]
      refine ⟨sound.rising, by simp, ?_⟩
      intro earlier member current same
      obtain ⟨other, present, rfl⟩ := List.mem_map.mp member
      rw [List.map_singleton, List.mem_singleton] at same
      rw [same, nonce]
      exact sound.used other present
    · intro packet member
      obtain ⟨other, present, same⟩ := sound.genuine packet member
      exact ⟨other, List.mem_append_left _ present, same⟩

theorem Sound.read (sound : ends.Sound) (positive : 1 ≤ ends.reader.size) (packet : Bytes) (capacity : Nat)
    (ideal : ends.Ideal cipher (.read packet capacity)) : (ends.step cipher (.read packet capacity)).Sound := by
  have state := ends.reader.readMessage_state cipher packet capacity
  cases decoded : Nonced.codec.deserialize packet with
  | none =>
    have nothing : ends.reader.read? cipher packet capacity = none := by simp [read?, readMessage, decoded]
    simp only [decoded] at state
    simpa only [step, nothing, state, Option.toList_none, List.append_nil] using sound
  | some nonced =>
    simp only [decoded] at state
    have kept : ∀ packet ∈ ends.received,
        Window.Refuses (Window.visit ends.reader.size ends.reader.receivedNonces nonced.nonce) packet.1 :=
      fun packet member => Window.refuses_visit positive (sound.refused packet member) _
    have bounded := Window.card_visit_le sound.bounded nonced.nonce
    cases accepted : ends.reader.read? cipher packet capacity with
    | none =>
      simp only [step, accepted, state, Option.toList_none, List.append_nil]
      exact ⟨sound.used, sound.rising, kept, sound.once, sound.genuine, bounded, sound.ordered⟩
    | some result =>
      obtain ⟨nonce, plaintext⟩ := result
      obtain ⟨other, same, rfl, admitted, opened⟩ := ends.reader.read?_some cipher accepted
      cases decoded.symm.trans same
      simp only [step, accepted, state, Option.toList_some]
      refine ⟨sound.used, sound.rising, ?_, ?_, ?_, bounded, ?_⟩
      · intro packet member
        rcases List.mem_append.mp member with member | member
        · exact kept packet member
        · rw [List.mem_singleton.mp member]
          exact Window.refuses_visit_self positive _ _
      · rw [List.map_append, List.nodup_append]
        refine ⟨sound.once, by simp, ?_⟩
        intro earlier member current last equal
        obtain ⟨packet, present, rfl⟩ := List.mem_map.mp member
        simp only [List.map_cons, List.map_nil, List.mem_singleton] at last
        exact admitted (last ▸ equal ▸ sound.refused packet present)
      · intro packet member
        rcases List.mem_append.mp member with member | member
        · exact sound.genuine packet member
        · rw [List.mem_singleton.mp member]
          exact ⟨_, ideal nonced (by simp [decoded]) plaintext (by simp [opened]), rfl, rfl⟩
      · intro single
        rw [List.map_append, List.pairwise_append]
        refine ⟨sound.ordered single, by simp, ?_⟩
        intro earlier member current last
        obtain ⟨packet, present, rfl⟩ := List.mem_map.mp member
        simp only [List.map_cons, List.map_nil, List.mem_singleton] at last
        rw [last]
        exact Window.lt_of_refuses_of_admits (single ▸ sound.bounded) (sound.refused packet present) admitted

theorem step_size (event : Event) : (ends.step cipher event).reader.size = ends.reader.size := by
  cases event with
  | write payload capacity => rfl
  | read packet capacity => simp only [step, readMessage_state]

theorem Sound.run (sound : ends.Sound) (positive : 1 ≤ ends.reader.size) (events : List Event)
    (ideal : ends.IdealRun cipher events) : (ends.run cipher events).Sound := by
  induction events generalizing ends with
  | nil => exact sound
  | cons event events ih =>
    obtain ⟨first, rest⟩ := ideal
    refine ih ?_ (by rw [step_size]; exact positive) rest
    cases event with
    | write payload capacity => exact sound.write payload capacity
    | read packet capacity => exact sound.read positive packet capacity first

theorem run_size (ends : Ends S) (events : List Event) : (ends.run cipher events).reader.size = ends.reader.size := by
  induction events generalizing ends with
  | nil => rfl
  | cons event events ih => exact (ih _).trans (step_size event)

/-- Over any run of writes and reads, with replayed, reordered, dropped and forged
packets, no nonce is used by two successful writes and none is read twice; a read
returns the plaintext of the one write with its nonce. A window of one item
accepts nonces in increasing order only. -/
theorem replay_protection (cipher : Cipher S) (writer reader : S) {size : Nat} (positive : 1 ≤ size)
    (events : List Event) (ideal : (start writer reader size).IdealRun cipher events) :
    let ends := (start writer reader size).run cipher events
    (ends.written.map Sealed.nonce).Nodup ∧ (ends.received.map Prod.fst).Nodup ∧
    (∀ packet ∈ ends.received, ∃ record ∈ ends.written, record.nonce = packet.1 ∧ record.plaintext = packet.2 ∧
      ∀ other ∈ ends.written, other.nonce = packet.1 → other = record) ∧
    (size = 1 → (ends.received.map Prod.fst).Pairwise (· < ·)) := by
  intro ends
  have sound : ends.Sound := (Sound.start writer reader size).run positive events ideal
  have distinct : (ends.written.map Sealed.nonce).Nodup := sound.rising.imp Nat.ne_of_lt
  refine ⟨distinct, sound.once, ?_, fun single => sound.ordered ((run_size _ events).trans single)⟩
  intro packet member
  obtain ⟨record, present, nonce, plaintext⟩ := sound.genuine packet member
  refine ⟨record, present, nonce, plaintext, ?_⟩
  intro other others same
  exact List.inj_on_of_nodup_map distinct others present (same.trans nonce.symm)

end Ends

/-- A cipher that authenticates with sixteen bytes made from the nonce. -/
def tagCipher : Cipher Unit where
  writeMessage _ nonce payload capacity :=
    if payload.length + 16 ≤ min 65535 capacity then some (payload ++ leBytes 16 (nonce + 1)) else none
  readMessage _ nonce payload capacity :=
    let plaintext := payload.take (payload.length - 16)
    if payload = plaintext ++ leBytes 16 (nonce + 1) ∧ plaintext.length ≤ capacity then some plaintext else none

def tagged (nonce : Nat) (payload : Bytes) : Bytes :=
  Nonced.codec.encode ⟨nonce, payload ++ leBytes 16 (nonce + 1)⟩

theorem replay_protection_reordered :
    let events : List Event := [.write [7] 100, .write [8] 100, .read (tagged 1 [8]) 100, .read (tagged 0 [7]) 100,
      .read (tagged 1 [8]) 100, .read [1, 2] 100]
    let ends := (Ends.start () () 2).run tagCipher events
    ends.received = [(1, [8])] ∧
    (ends.written.map Sealed.nonce).Nodup ∧ (ends.received.map Prod.fst).Nodup ∧
    (∀ packet ∈ ends.received, ∃ record ∈ ends.written, record.nonce = packet.1 ∧ record.plaintext = packet.2 ∧
      ∀ other ∈ ends.written, other.nonce = packet.1 → other = record) ∧
    (2 = 1 → (ends.received.map Prod.fst).Pairwise (· < ·)) :=
  ⟨by decide, Ends.replay_protection tagCipher () () (by decide) _ (by decide)⟩

section

variable (capacity : Nat)

/-- The packet decodes, and its ciphertext authenticates at the nonce it carries. -/
def authentic (stateless : S) (packet : Bytes) : Bool :=
  ((Nonced.codec.deserialize packet).bind fun nonced =>
    cipher.readMessage stateless nonced.nonce nonced.payload capacity).isSome

def readAll (state : LossyTransportState S) : List Bytes → List (Bytes × Except Failure Bytes)
  | [] => []
  | packet :: packets =>
    (packet, (state.readMessage cipher packet capacity).2) ::
      readAll (state.readMessage cipher packet capacity).1 packets

/-- The authentic packets have the results they would have without the others. -/
def Undisturbed (packets : List Bytes) : Prop :=
  (state.readAll cipher capacity packets).filter (fun read => authentic cipher capacity state.stateless read.1) =
    state.readAll cipher capacity (packets.filter (authentic cipher capacity state.stateless))

/-- Each packet that is not authentic meets a window that refuses its nonce. -/
def ForgeriesRefused (state : LossyTransportState S) : List Bytes → Prop
  | [] => True
  | packet :: packets =>
    (authentic cipher capacity state.stateless packet = false →
      ∀ nonced ∈ Nonced.codec.deserialize packet, Window.Refuses state.receivedNonces nonced.nonce) ∧
    ForgeriesRefused (state.readMessage cipher packet capacity).1 packets

/-- The peer can write a packet at every nonce that these packets carry. -/
def Writable (packets : List Bytes) : Prop :=
  ∀ packet ∈ packets, ∀ nonced ∈ Nonced.codec.deserialize packet, ∃ genuine,
    authentic cipher capacity state.stateless genuine = true ∧
      (Nonced.codec.deserialize genuine).map Nonced.nonce = some nonced.nonce

variable {cipher capacity} {state} {packet : Bytes} {packets : List Bytes}

theorem readMessage_stateless (packet : Bytes) :
    (state.readMessage cipher packet capacity).1.stateless = state.stateless := by
  simp only [readMessage_state]

theorem readMessage_refused
    (refused : ∀ nonced ∈ Nonced.codec.deserialize packet, Window.Refuses state.receivedNonces nonced.nonce) :
    (state.readMessage cipher packet capacity).1 = state := by
  rw [readMessage_state]
  cases decoded : Nonced.codec.deserialize packet with
  | none => rfl
  | some nonced => simp [Window.visit, refused nonced (by simp [decoded])]

theorem undisturbed_cons_authentic (genuine : authentic cipher capacity state.stateless packet = true) :
    state.Undisturbed cipher capacity (packet :: packets) ↔
      (state.readMessage cipher packet capacity).1.Undisturbed cipher capacity packets := by
  simp [Undisturbed, readAll, genuine, readMessage_stateless]

theorem undisturbed_cons_refused (forged : authentic cipher capacity state.stateless packet = false)
    (refused : ∀ nonced ∈ Nonced.codec.deserialize packet, Window.Refuses state.receivedNonces nonced.nonce) :
    state.Undisturbed cipher capacity (packet :: packets) ↔ state.Undisturbed cipher capacity packets := by
  simp [Undisturbed, readAll, forged, readMessage_refused refused]

theorem ForgeriesRefused.initial {before : List Bytes} (refused : state.ForgeriesRefused cipher capacity packets)
    (first : before <+: packets) : state.ForgeriesRefused cipher capacity before := by
  induction before generalizing state packets with
  | nil => trivial
  | cons packet before ih =>
    obtain ⟨rest, rfl⟩ := first
    exact ⟨refused.1, ih refused.2 ⟨rest, rfl⟩⟩

theorem undisturbed_of_refused (refused : state.ForgeriesRefused cipher capacity packets) (later : List Bytes)
    (genuine : ∀ packet ∈ later, authentic cipher capacity state.stateless packet = true) :
    state.Undisturbed cipher capacity (packets ++ later) := by
  induction packets generalizing state with
  | nil =>
    rw [List.nil_append]
    induction later generalizing state with
    | nil => rfl
    | cons packet later ih =>
      rw [undisturbed_cons_authentic (genuine packet (by simp))]
      refine ih trivial ?_
      intro other member
      rw [readMessage_stateless]
      exact genuine other (by simp [member])
  | cons packet packets ih =>
    have rest := ih refused.2 (by simpa only [readMessage_stateless] using genuine)
    cases checked : authentic cipher capacity state.stateless packet with
    | true => exact (undisturbed_cons_authentic checked).mpr rest
    | false =>
      rw [List.cons_append, undisturbed_cons_refused checked (refused.1 checked)]
      rwa [readMessage_refused (refused.1 checked)] at rest

/-- A nonce that a forgery has brought into the window is lost to the packet that
was written with it. -/
theorem disturbed_of_admitted (positive : 1 ≤ state.size) {genuine : Bytes} {nonced : Nonced}
    (forged : authentic cipher capacity state.stateless packet = false)
    (decoded : Nonced.codec.deserialize packet = some nonced)
    (admitted : ¬ Window.Refuses state.receivedNonces nonced.nonce)
    (written : authentic cipher capacity state.stateless genuine = true)
    (same : (Nonced.codec.deserialize genuine).map Nonced.nonce = some nonced.nonce) :
    ¬ state.Undisturbed cipher capacity [packet, genuine] := by
  obtain ⟨other, decodedGenuine, nonce⟩ := Option.map_eq_some_iff.mp same
  have shut : Window.Refuses (state.readMessage cipher packet capacity).1.receivedNonces other.nonce := by
    rw [readMessage_state, decoded, nonce]
    exact Window.refuses_visit_self positive _ _
  have before : ¬ Window.Refuses state.receivedNonces other.nonce := nonce ▸ admitted
  obtain ⟨plaintext, opened⟩ := Option.isSome_iff_exists.mp written
  simp only [decodedGenuine, Option.bind_some] at opened
  have rejected : ((state.readMessage cipher packet capacity).1.readMessage cipher genuine capacity).2 = .error .snow := by
    generalize (state.readMessage cipher packet capacity).1 = next at shut
    simp [readMessage, decodedGenuine, shut]
  have accepted : (state.readMessage cipher genuine capacity).2 = .ok plaintext := by
    simp [readMessage, decodedGenuine, before, opened]
  simp [Undisturbed, readAll, forged, written, rejected, accepted]

theorem refused_of_undisturbed (positive : 1 ≤ state.size) (writable : state.Writable cipher capacity packets)
    (undisturbed : ∀ before later, before <+: packets →
      (∀ packet ∈ later, authentic cipher capacity state.stateless packet = true) →
      state.Undisturbed cipher capacity (before ++ later)) :
    state.ForgeriesRefused cipher capacity packets := by
  induction packets generalizing state with
  | nil => trivial
  | cons packet packets ih =>
    have head : authentic cipher capacity state.stateless packet = false →
        ∀ nonced ∈ Nonced.codec.deserialize packet, Window.Refuses state.receivedNonces nonced.nonce := by
      intro forged nonced decoded
      by_contra admitted
      obtain ⟨genuine, written, same⟩ := writable packet (by simp) nonced decoded
      refine disturbed_of_admitted positive forged decoded admitted written same ?_
      exact undisturbed [packet] [genuine] ⟨packets, rfl⟩ (by simpa using written)
    refine ⟨head, ih ?_ ?_ ?_⟩
    · simpa only [readMessage_state] using positive
    · intro other member nonced decoded
      simpa only [readMessage_stateless] using writable other (by simp [member]) nonced decoded
    · intro before later first genuine
      rw [readMessage_stateless] at genuine
      have whole := undisturbed (packet :: before) later (by simpa using first) genuine
      rw [List.cons_append] at whole
      cases checked : authentic cipher capacity state.stateless packet with
      | true => exact (undisturbed_cons_authentic checked).mp whole
      | false =>
        rw [readMessage_refused (head checked)]
        exact (undisturbed_cons_refused checked (head checked)).mp whole

/-- Packets that do not authenticate leave the genuine ones alone when the window
refuses every nonce that they carry. Nothing less will do for the genuine packets
that may follow: admitting one forged nonce is already enough to lose a packet. -/
theorem genuine_undisturbed (cipher : Cipher S) (capacity : Nat) (state : LossyTransportState S)
    (packets : List Bytes) :
    (state.ForgeriesRefused cipher capacity packets → state.Undisturbed cipher capacity packets) ∧
    (1 ≤ state.size → state.Writable cipher capacity packets →
      ((∀ before later, before <+: packets →
        (∀ packet ∈ later, authentic cipher capacity state.stateless packet = true) →
        state.Undisturbed cipher capacity (before ++ later)) ↔
      state.ForgeriesRefused cipher capacity packets)) := by
  refine ⟨fun refused => ?_, fun positive writable => ⟨refused_of_undisturbed positive writable, ?_⟩⟩
  · simpa using undisturbed_of_refused refused [] (by simp)
  · intro refused before later first genuine
    exact undisturbed_of_refused (refused.initial first) later genuine

end

/-- A forged packet with the largest nonce, then the first packet that the peer
wrote: the forgery shuts it out. -/
theorem forgery_disturbs :
    ¬ (fromStateless ()).Undisturbed tagCipher 65535 [Nonced.codec.encode ⟨2 ^ 64 - 1, [0]⟩, tagged 0 [7]] := by
  unfold Undisturbed
  decide

end Veq.LossyTransportState
