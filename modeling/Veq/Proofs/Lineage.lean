import Veq.Lineage
import Veq.Runs
import Veq.Proofs.Tasks

/-! The generations of a session id, with the sessions that have left. Each id goes
its own way, and what one generation puts on the wire, its last keepalive included,
leaves in the order of the protocol. -/

namespace Veq
open Rust Bincode Machines

variable {H S : Type}

namespace Attended

variable {snow : Snow H S} {keypair : SnowKeypair} {id : SessionId} {attended : Attended H S} {lineage : Lineage H S}
  {label : Label}

/-- A handler and its tasks at one id. -/
structure Shows (keypair : SnowKeypair) (id : SessionId) (attended : Attended H S) (lineage : Lineage H S) : Prop where
  holds : Handler.Holds keypair id attended.handler lineage.slot
  generation : attended.generations id = lineage.generation
  lingering : attended.lingering id = lineage.lingering

theorem Shows.new (keypair : SnowKeypair) (id : SessionId) : Shows keypair id (.new keypair : Attended H S) .new :=
  ⟨.new keypair id, rfl, rfl⟩

theorem Shows.concerned (shows : Shows keypair id attended lineage) (concerned : label.concerns id = true) :
    Shows keypair id (attended.step snow label).1 (lineage.step snow keypair id label).1 ∧
      (attended.step snow label).2 = (lineage.step snow keypair id label).2 := by
  cases label with
  | access access =>
    have about : access.id? = some id := by simpa [Label.concerns, Access.concerns] using concerned
    obtain ⟨holds, answered⟩ := Handler.access_concerned snow concerned shows.holds
    simp only [step, Attended.access, about, Lineage.step, shows.generation, shows.lingering, shows.holds.established,
      holds.established, answered]
    exact ⟨⟨holds, by simp, by simp⟩, trivial⟩
  | keepalive other index =>
    obtain rfl : other = id := by simpa [Label.concerns] using concerned
    simp only [step, Lineage.step, shows.lingering]
    exact ⟨⟨shows.holds, shows.generation, by simp⟩, trivial⟩

theorem Shows.unconcerned (shows : Shows keypair id attended lineage) (unconcerned : label.concerns id = false) :
    Shows keypair id (attended.step snow label).1 lineage := by
  cases label with
  | access access =>
    have holds := Handler.access_unconcerned snow unconcerned shows.holds
    simp only [step, Attended.access]
    cases about : access.id? with
    | none => exact ⟨holds, shows.generation, shows.lingering⟩
    | some other =>
      have apart : id ≠ other := by
        rintro rfl
        simp [Label.concerns, Access.concerns, about] at unconcerned
      exact ⟨holds, by simp [apart, shows.generation], by simp [apart, shows.lingering]⟩
  | keepalive other index =>
    have apart : id ≠ other := by
      rintro rfl
      simp [Label.concerns] at unconcerned
    exact ⟨shows.holds, shows.generation, by simp [step, apart, shows.lingering]⟩

theorem simulates_lineage (snow : Snow H S) (keypair : SnowKeypair) (id : SessionId) :
    Simulates (step snow) (Lineage.step snow keypair id) (Label.concerns id) (Shows keypair id) :=
  ⟨fun _ _ _ concerned shows => shows.concerned concerned, fun _ _ _ unconcerned shows => shows.unconcerned unconcerned⟩

/-- After every run of accesses and last keepalives, a handler holds under each id
exactly what those about that id make of a vacant slot, as does what has left it,
and it has answered them as the slot would. -/
theorem run_slot (snow : Snow H S) (keypair : SnowKeypair) (labels : List Label) (id : SessionId) :
    Shows keypair id (after (step snow) (.new keypair) labels)
        (after (Lineage.step snow keypair id) .new (labels.filter (Label.concerns id))) ∧
      (trace (step snow) (.new keypair) labels).filter (fun entry => entry.1.concerns id) =
        trace (Lineage.step snow keypair id) .new (labels.filter (Label.concerns id)) :=
  ⟨(simulates_lineage snow keypair id).after (.new keypair id) labels,
    (simulates_lineage snow keypair id).trace (.new keypair id) labels⟩

end Attended

def Answer.packets (generation : Nat) (answer : Answer) : List SessionPacket :=
  if answer.generation = generation then answer.output.sessionPackets else []

theorem Answer.mem_packets {generation : Nat} {answer : Answer} {packet : SessionPacket} :
    packet ∈ answer.packets generation ↔ answer.generation = generation ∧ packet ∈ answer.output.sessionPackets := by
  unfold Answer.packets
  split
  next same => simp [same]
  next other => simp [other]

theorem Slot.connect_silent (slot : Slot H S) (snow : Snow H S) (keypair : SnowKeypair) (id : SessionId) {access : Access}
    (connects : access.info? ≠ none) : (slot.access snow keypair id access).2.outgoing = [] := by
  cases access with
  | operate operation =>
    cases operation with
    | initiate | respond =>
      simp only [Slot.access, initiate, respond]
      split <;> rfl
    | _ => exact absurd rfl connects
  | _ => exact absurd rfl connects

theorem Slot.Moves.vacant {snow : Snow H S} {access : Access} {next : Slot H S} (moves : Moves snow access .vacant next) :
    next = .vacant := by
  cases moves with
  | stays => rfl
  | vacates => rfl

theorem Slot.Moves.departs {snow : Snow H S} {access : Access} {slot next : Slot H S} (moves : Moves snow access slot next)
    (present : slot.session ≠ none) (gone : next.session = none) : next = .vacant := by
  cases moves with
  | vacates => rfl
  | stays => exact absurd gone present
  | continues => cases gone
  | _ => exact absurd rfl present

theorem Slot.emits_stays {slot : Slot H S} {snow : Snow H S} {keypair : SnowKeypair} {id : SessionId} {access : Access}
    {outgoing : Outgoing} (member : outgoing ∈ (slot.access snow keypair id access).2.outgoing) (present : slot.session ≠ none) :
    (slot.access snow keypair id access).1.session ≠ none := by
  rcases access_outgoing member with ⟨-, same, -⟩ | ⟨session, oneTimeId, message, -, -, moved, -⟩
  · rw [same]
    exact present
  · rw [moved]
    exact Option.some_ne_none _

theorem Lingering.mem_left {generation : Nat} {before after : Option (OneTimeId × Session S)} {gone : Lingering S}
    (member : gone ∈ left generation before after) : gone.generation = generation ∧ after = none ∧
      ∃ oneTimeId session, before = some (oneTimeId, session) ∧ gone.spawned.session = session.close := by
  unfold left at member
  split at member
  next oneTimeId session =>
    rw [List.mem_singleton.mp member]
    exact ⟨rfl, rfl, oneTimeId, session, rfl, rfl⟩
  · cases member

theorem Lingering.nodup_left (generation : Nat) (before after : Option (OneTimeId × Session S)) :
    ((left generation before after).map Lingering.generation).Nodup := by
  unfold left
  split
  · exact List.nodup_singleton _
  · exact List.nodup_nil

/-- The tick of a keepalive task that was left behind sends a packet with the next
nonce, or nothing. -/
theorem keepaliveLeft_cases (cipher : Cipher S) (lingering : List (Lingering S)) (index : Nat) :
    ((keepaliveLeft cipher lingering index).1 = lingering ∧
        (keepaliveLeft cipher lingering index).2.output.sessionPackets = []) ∨
    ∃ gone spawned, lingering[index]? = some gone ∧ gone.spawned.session.Continues spawned.session ∧
      (keepaliveLeft cipher lingering index).1 = lingering.set index { gone with spawned } ∧
      (keepaliveLeft cipher lingering index).2.generation = gone.generation ∧
      ((keepaliveLeft cipher lingering index).2.output.sessionPackets = [] ∨
        ∃ packet, (keepaliveLeft cipher lingering index).2.output.sessionPackets = [packet] ∧
          packet.nonce? = some gone.spawned.session.transport.nextNonce ∧
          spawned.session.transport.nextNonce = gone.spawned.session.transport.nextNonce + 1) := by
  cases found : lingering[index]? with
  | none =>
    refine .inl ?_
    simp [keepaliveLeft, found, Output.sessionPackets, Output.outgoing]
  | some gone =>
    refine .inr ⟨gone, (gone.spawned.keepaliveTick cipher).1, rfl, ?_⟩
    simp only [keepaliveLeft, found]
    rcases gone.spawned.keepaliveTick_cases cipher with ⟨same, -⟩ | ⟨-, sending, outgoing, ticked, sent⟩
    · rw [same]
      exact ⟨⟨rfl, rfl, rfl, Nat.le_refl _⟩, trivial, trivial, .inl rfl⟩
    · rw [ticked]
      refine ⟨gone.spawned.session.encrypt_continues cipher .keepalive, trivial, trivial, ?_⟩
      rcases sent with rfl | ⟨packet, rfl, encrypted, -⟩
      · exact .inl rfl
      · obtain ⟨data, -, -, nonce, advanced⟩ := Session.encrypt_outgoing encrypted
        exact .inr ⟨packet.2.1, rfl, nonce, advanced⟩

namespace Lineage

variable {snow : Snow H S} {keypair : SnowKeypair} {id : SessionId} {lineage : Lineage H S} {generation : Nat}

/-- Every generation leaves at most one session behind, and none while its slot is in use. -/
structure Valid (id : SessionId) (lineage : Lineage H S) : Prop where
  formed : lineage.slot.Formed id fun _ => True
  idle : lineage.slot.Idle
  past : ∀ gone ∈ lineage.lingering, gone.generation ≤ lineage.generation
  vacant : ∀ gone ∈ lineage.lingering, gone.generation = lineage.generation → lineage.slot = .vacant
  once : (lineage.lingering.map Lingering.generation).Nodup

/-- The packets that a generation may still emit, if it has begun. -/
def Admits (generation : Nat) (lineage : Lineage H S) (packet : SessionPacket) : Prop :=
  lineage.generation < generation ∨
    lineage.generation = generation ∧ lineage.slot.Admits packet ∨
    ∃ gone ∈ lineage.lingering, gone.generation = generation ∧
      ∃ nonce, packet.nonce? = some nonce ∧ gone.spawned.session.transport.nextNonce ≤ nonce

theorem Valid.new (id : SessionId) : Valid id (.new : Lineage H S) :=
  ⟨trivial, trivial, by simp [Lineage.new], by simp [Lineage.new], .nil⟩

theorem Valid.access (valid : lineage.Valid id) (snow : Snow H S) (keypair : SnowKeypair) (access : Access) :
    (lineage.step snow keypair id (.access access)).1.Valid id := by
  obtain ⟨formed, idle⟩ := valid.formed.stays valid.idle snow keypair access
  refine ⟨formed, idle, ?_, ?_, ?_⟩
  · intro gone member
    have later : lineage.generation ≤ access.generation lineage.generation := by
      unfold Access.generation
      split <;> omega
    rcases List.mem_append.mp member with old | new
    · exact Nat.le_trans (valid.past gone old) later
    · rw [(Lingering.mem_left new).1]
      exact later
  · intro gone member same
    cases connects : access.info? with
    | some info =>
      have earlier : gone.generation ≤ lineage.generation := by
        rcases List.mem_append.mp member with old | new
        · exact valid.past gone old
        · exact Nat.le_of_eq (Lingering.mem_left new).1
      have next : gone.generation = lineage.generation + 1 := by
        simpa [step, Access.generation, connects] using same
      omega
    | none =>
      have moves := Slot.access_moves snow keypair id valid.idle connects
      rcases List.mem_append.mp member with old | new
      · have before : lineage.slot = .vacant := valid.vacant gone old (by simpa [step, Access.generation, connects] using same)
        rw [before] at moves
        simp only [step, before]
        exact moves.vacant
      · obtain ⟨-, absent, oneTimeId, session, present, -⟩ := Lingering.mem_left new
        exact moves.departs (by simp [present]) absent
  · simp only [step, List.map_append]
    refine List.nodup_append.mpr ⟨valid.once, Lingering.nodup_left _ _ _, ?_⟩
    intro earlier old current new same
    obtain ⟨before, member, rfl⟩ := List.mem_map.mp old
    obtain ⟨gone, left, rfl⟩ := List.mem_map.mp new
    obtain ⟨current, -, oneTimeId, session, present, -⟩ := Lingering.mem_left left
    rw [valid.vacant before member (same.trans current)] at present
    cases present

theorem set_generation {lingering : List (Lingering S)} {index : Nat} {gone next : Lingering S}
    (found : lingering[index]? = some gone) (same : next.generation = gone.generation) :
    (lingering.set index next).map Lingering.generation = lingering.map Lingering.generation := by
  obtain ⟨inside, rfl⟩ := List.getElem?_eq_some_iff.mp found
  have within : index < (lingering.map Lingering.generation).length := by simpa using inside
  have held : (lingering.map Lingering.generation)[index] = lingering[index].generation := List.getElem_map _
  rw [List.map_set, same, ← held, List.set_getElem_self]

theorem Valid.keepalive (valid : lineage.Valid id) (snow : Snow H S) (keypair : SnowKeypair) (other : SessionId) (index : Nat) :
    (lineage.step snow keypair id (.keepalive other index)).1.Valid id := by
  simp only [step]
  rcases keepaliveLeft_cases snow.toCipher lineage.lingering index with
    ⟨same, -⟩ | ⟨gone, spawned, found, -, ticked, -⟩
  · rw [same]
    exact valid
  · rw [ticked]
    have generations : (lineage.lingering.set index { gone with spawned }).map Lingering.generation =
        lineage.lingering.map Lingering.generation := set_generation found rfl
    have kept : ∀ left ∈ lineage.lingering.set index { gone with spawned }, ∃ old ∈ lineage.lingering,
        old.generation = left.generation := by
      intro left member
      have known : left.generation ∈ (lineage.lingering.set index { gone with spawned }).map Lingering.generation :=
        List.mem_map_of_mem member
      rw [generations] at known
      exact List.mem_map.mp known
    refine ⟨valid.formed, valid.idle, ?_, ?_, ?_⟩
    · intro left member
      obtain ⟨old, present, same⟩ := kept left member
      exact same ▸ valid.past old present
    · intro left member current
      obtain ⟨old, present, same⟩ := kept left member
      exact valid.vacant old present (same.trans current)
    · rw [generations]
      exact valid.once

theorem Valid.step (valid : lineage.Valid id) (snow : Snow H S) (keypair : SnowKeypair) (label : Attended.Label) :
    (lineage.step snow keypair id label).1.Valid id := by
  cases label with
  | access access => exact valid.access snow keypair access
  | keepalive other index => exact valid.keepalive snow keypair other index

theorem Admits.access (valid : lineage.Valid id) {access : Access} {packet : SessionPacket}
    (admits : (lineage.step snow keypair id (.access access)).1.Admits generation packet) :
    lineage.Admits generation packet := by
  rcases admits with later | ⟨current, admits⟩ | ⟨gone, member, same, nonce, carried, above⟩
  · refine .inl (Nat.lt_of_le_of_lt ?_ later)
    simp only [step, Access.generation]
    split <;> omega
  · cases connects : access.info? with
    | some info =>
      refine .inl ?_
      have next : lineage.generation + 1 = generation := by simpa [step, Access.generation, connects] using current
      omega
    | none =>
      have same : lineage.generation = generation := by simpa [step, Access.generation, connects] using current
      exact .inr (.inl ⟨same, (Slot.access_moves snow keypair id valid.idle connects).admits admits⟩)
  · rcases List.mem_append.mp member with old | new
    · exact .inr (.inr ⟨gone, old, same, nonce, carried, above⟩)
    · obtain ⟨current, -, oneTimeId, session, present, closed⟩ := Lingering.mem_left new
      refine .inr (.inl ⟨current.symm.trans same, ?_⟩)
      rw [closed] at above
      cases slot : lineage.slot with
      | established =>
        rw [slot] at present
        cases present
        exact ⟨nonce, carried, above⟩
      | _ =>
        rw [slot] at present
        cases present

theorem Admits.keepalive {other : SessionId} {index : Nat} {packet : SessionPacket}
    (admits : (lineage.step snow keypair id (.keepalive other index)).1.Admits generation packet) :
    lineage.Admits generation packet := by
  simp only [step] at admits
  rcases keepaliveLeft_cases snow.toCipher lineage.lingering index with
    ⟨same, -⟩ | ⟨gone, spawned, found, continues, ticked, -⟩
  · rw [same] at admits
    exact admits
  · rw [ticked] at admits
    rcases admits with later | current | ⟨left, member, same, nonce, carried, above⟩
    · exact .inl later
    · exact .inr (.inl current)
    · rcases List.mem_or_eq_of_mem_set member with old | rfl
      · exact .inr (.inr ⟨left, old, same, nonce, carried, above⟩)
      · exact .inr (.inr ⟨gone, List.mem_of_getElem? found, same, nonce, carried, Nat.le_trans continues.nextNonce above⟩)

theorem access_packets {access : Access} {packet : SessionPacket}
    (member : packet ∈ (lineage.step snow keypair id (.access access)).2.packets generation) :
    access.info? = none ∧ lineage.generation = generation ∧
      packet ∈ (lineage.slot.access snow keypair id access).2.sessionPackets := by
  obtain ⟨current, emitted⟩ := Answer.mem_packets.mp member
  simp only [step] at current emitted
  have unnamed : access.info? = none := by
    by_contra connects
    simp [Output.sessionPackets, Slot.connect_silent _ snow keypair id connects] at emitted
  exact ⟨unnamed, by simpa [Access.generation, unnamed] using current, emitted⟩

theorem keepalive_packets {other : SessionId} {index : Nat} {packet : SessionPacket}
    (member : packet ∈ (lineage.step snow keypair id (.keepalive other index)).2.packets generation) :
    (lineage.step snow keypair id (.keepalive other index)).2.output.sessionPackets = [packet] ∧
    ∃ gone spawned, lineage.lingering[index]? = some gone ∧ gone.generation = generation ∧
      packet.nonce? = some gone.spawned.session.transport.nextNonce ∧
      spawned.session.transport.nextNonce = gone.spawned.session.transport.nextNonce + 1 ∧
      (lineage.step snow keypair id (.keepalive other index)).1 =
        { lineage with lingering := lineage.lingering.set index { gone with spawned } } := by
  obtain ⟨current, emitted⟩ := Answer.mem_packets.mp member
  simp only [step] at current emitted ⊢
  rcases keepaliveLeft_cases snow.toCipher lineage.lingering index with
    ⟨-, silent⟩ | ⟨gone, spawned, found, -, ticked, same, silent | ⟨sent, alone, nonce, advanced⟩⟩
  · rw [silent] at emitted
    cases emitted
  · rw [silent] at emitted
    cases emitted
  · rw [alone] at emitted
    obtain rfl := List.mem_singleton.mp emitted
    exact ⟨alone, gone, spawned, found, same.symm.trans current, nonce, advanced, by rw [ticked]⟩

theorem precedes_of_nonce {first second : SessionPacket} {nonce next : Nat} (carried : first.nonce? = some nonce)
    (later : second.nonce? = some next) (above : nonce < next) : first.Precedes second := by
  refine ⟨?_, ?_⟩
  · intro tag one other two
    cases (SessionPacket.nonce?_variant carried).symm.trans one
    cases (SessionPacket.nonce?_variant later).symm.trans two
    exact Nat.le_refl _
  · intro tag one other two
    cases carried.symm.trans one
    cases later.symm.trans two
    exact above

/-- What an access emits comes before whatever its generation emits later. -/
theorem access_precedes (valid : lineage.Valid id) {access : Access} {packet later : SessionPacket}
    (member : packet ∈ (lineage.step snow keypair id (.access access)).2.packets generation)
    (admits : (lineage.step snow keypair id (.access access)).1.Admits generation later) : packet.Precedes later := by
  obtain ⟨unnamed, current, emitted⟩ := access_packets member
  have still : access.generation lineage.generation = generation := by simpa [Access.generation, unnamed] using current
  obtain ⟨outgoing, sent, rfl⟩ := List.mem_map.mp emitted
  rcases admits with begun | ⟨-, admits⟩ | ⟨gone, present, same, -⟩
  · simp only [step] at begun
    omega
  · exact (Slot.access_emits snow keypair id).precedes lineage.slot access unnamed ⟨valid.formed, valid.idle⟩ _ emitted
      later admits
  · -- a session that has left its slot vacant, and nothing is emitted there
    rcases List.mem_append.mp present with old | new
    · have vacant := valid.vacant gone old (same.trans current.symm)
      rw [vacant] at sent
      rcases Slot.access_outgoing sent with ⟨retransmitted, -, -⟩ | ⟨session, oneTimeId, message, established, -⟩
      · cases retransmitted
      · cases established
    · obtain ⟨-, absent, oneTimeId, session, held, -⟩ := Lingering.mem_left new
      exact absurd absent (Slot.emits_stays sent (by simp [held]))

theorem keepalive_precedes (valid : lineage.Valid id) {other : SessionId} {index : Nat} {packet later : SessionPacket}
    (member : packet ∈ (lineage.step snow keypair id (.keepalive other index)).2.packets generation)
    (admits : (lineage.step snow keypair id (.keepalive other index)).1.Admits generation later) :
    packet.Precedes later := by
  obtain ⟨-, gone, spawned, found, current, nonce, advanced, stepped⟩ := keepalive_packets member
  have present := List.mem_of_getElem? found
  rw [stepped] at admits
  rcases admits with begun | ⟨same, admits⟩ | ⟨left, member, same, next, carried, above⟩
  · have past : gone.generation ≤ lineage.generation := valid.past gone present
    simp only at begun
    omega
  · rw [valid.vacant gone present (current.trans same.symm)] at admits
    cases admits
  · obtain ⟨place, held⟩ := List.getElem?_of_mem member
    rcases Runs.set_some held with ⟨-, rfl⟩ | ⟨elsewhere, held⟩
    · simp only at above
      exact precedes_of_nonce nonce carried (by omega)
    · have inside : index < (lineage.lingering.map Lingering.generation).length := by
        simpa using (List.getElem?_eq_some_iff.mp found).1
      have both : (lineage.lingering.map Lingering.generation)[index]? =
          (lineage.lingering.map Lingering.generation)[place]? := by
        rw [List.getElem?_map, List.getElem?_map, found, held]
        exact congrArg some (current.trans same.symm)
      exact absurd ((List.getElem?_inj inside valid.once).mp both).symm elsewhere

/-- The packets that a generation emits leave in the order of the protocol. -/
theorem step_emits (snow : Snow H S) (keypair : SnowKeypair) (id : SessionId) (generation : Nat) :
    Emits (step snow keypair id) (Answer.packets generation) (fun _ => True) (Valid id) (Admits generation)
      SessionPacket.Precedes := by
  have slots := Slot.access_emits snow keypair id
  constructor
  · exact fun lineage label _ valid => valid.step snow keypair label
  · intro lineage label _ valid packet admits
    cases label with
    | access access => exact admits.access valid
    | keepalive other index => exact admits.keepalive
  · intro lineage label _ valid packet member
    cases label with
    | access access =>
      obtain ⟨unnamed, current, emitted⟩ := access_packets member
      exact .inr (.inl ⟨current, slots.admitted lineage.slot access unnamed ⟨valid.formed, valid.idle⟩ packet emitted⟩)
    | keepalive other index =>
      obtain ⟨-, gone, spawned, found, current, nonce, -⟩ := keepalive_packets member
      exact .inr (.inr ⟨gone, List.mem_of_getElem? found, current, _, nonce, Nat.le_refl _⟩)
  · intro lineage label _ valid
    cases emits : (lineage.step snow keypair id label).2.packets generation with
    | nil => exact .nil
    | cons packet packets =>
      have member : packet ∈ (lineage.step snow keypair id label).2.packets generation := by simp [emits]
      rw [← emits, Answer.packets, if_pos (Answer.mem_packets.mp member).1]
      cases label with
      | access access =>
        exact slots.together lineage.slot access (access_packets member).1 ⟨valid.formed, valid.idle⟩
      | keepalive other index =>
        rw [(keepalive_packets member).1]
        exact List.pairwise_singleton _ _
  · intro lineage label _ valid packet member later admits
    cases label with
    | access access => exact access_precedes valid member admits
    | keepalive other index => exact keepalive_precedes valid member admits

theorem Valid.connect (valid : lineage.Valid id) {connect : Access} (connects : connect.info? ≠ none) {packet : SessionPacket}
    (admits : (lineage.step snow keypair id (.access connect)).1.Admits
      (lineage.step snow keypair id (.access connect)).1.generation packet) : packet.nonce?.isSome ∨
      if connect.initiates then packet.variant = some 1 else packet.variant = some 0 ∨ packet.variant = some 2 := by
  rcases admits with later | ⟨-, admits⟩ | ⟨gone, member, same, -⟩
  · exact absurd later (Nat.lt_irrefl _)
  · exact Slot.connect_admits connects admits
  · have next : gone.generation = lineage.generation + 1 := by
      rw [same]
      simp [Lineage.step, Access.generation, Option.isSome_iff_ne_none.mpr connects]
    have earlier : gone.generation ≤ lineage.generation := by
      rcases List.mem_append.mp member with old | new
      · exact valid.past gone old
      · exact Nat.le_of_eq (Lingering.mem_left new).1
    omega

end Lineage

namespace Attended

def packetsOf (id : SessionId) (generation : Nat) (steps : List (Label × Answer)) : List SessionPacket :=
  emissions (Answer.packets generation) (steps.filter fun entry => entry.1.concerns id)

/-- The packets of one generation leave in the order of the protocol, to the last
keepalive that is sent after the session has left: an initiator sends initiations
and then ciphertexts, a responder pokes, then responses and then ciphertexts, and
no nonce is used again. -/
theorem wire_order (snow : Snow H S) (keypair : SnowKeypair) (history : List Label) {connect : Access} {id : SessionId}
    (about : connect.id? = some id) (connects : connect.info? ≠ none) (rest : List Label) :
    let begun := after (step snow) (.new keypair) (history ++ [.access connect])
    let packets := packetsOf id (begun.generations id) (trace (step snow) begun rest)
    packets.Pairwise SessionPacket.Precedes ∧ ∀ packet ∈ packets, packet.nonce?.isSome ∨
      if connect.initiates then packet.variant = some 1 else packet.variant = some 0 ∨ packet.variant = some 2 := by
  have concerned : Label.concerns id (.access connect) = true := by simp [Label.concerns, Access.concerns, about]
  have simulates := simulates_lineage snow keypair id
  have before := simulates.after (.new keypair id) history
  have valid : Lineage.Valid id (after (Lineage.step snow keypair id) .new (history.filter (Label.concerns id))) :=
    after_invariant (fun _ label valid => valid.step snow keypair label) (.new id) _
  obtain ⟨shows, -⟩ := simulates.answers _ _ _ concerned before
  have emits := Lineage.step_emits snow keypair id
  have next := valid.step snow keypair (.access connect)
  rw [after_concat]
  dsimp only
  rw [packetsOf, simulates.trace shows rest, shows.generation]
  refine ⟨(emits _).pairwise next fun _ _ => trivial, ?_⟩
  intro packet member
  exact valid.connect connects ((emits _).admitted_run next (fun _ _ => trivial) packet member)

/-- The session is closed and connected anew, and its keepalive task sends once more
when the initiations of the next generation are under way. -/
theorem wire_order_closed :
    let rest : List Label := [.access (.retransmit 7),
      .access (.operate (.handleIncoming (.v4 1 1) (Handler.packetFor 7 (.handshakeResponse [2])) 0)),
      .access (.operate (.keepalive 7)), .access (.operate (.closeSession 7 40)),
      .access (.operate (.initiate 7 ⟨[.v4 1 1], [9]⟩ 0 41)), .access (.retransmit 7), .keepalive 7 0, .keepalive 7 0]
    let begun := after (step Handler.fixedSnow) (.new ⟨[1], [2]⟩) [.access (.operate (.initiate 7 ⟨[.v4 1 1], [9]⟩ 0 40))]
    let packets := packetsOf 7 (begun.generations 7) (trace (step Handler.fixedSnow) begun rest)
    packets.map SessionPacket.variant = [some 1, some 3, some 3] ∧ packets.map SessionPacket.nonce? = [none, some 0, some 1] ∧
      packets.Pairwise SessionPacket.Precedes := by
  refine ⟨by decide, by decide, ?_⟩
  exact (wire_order Handler.fixedSnow ⟨[1], [2]⟩ [] rfl (by decide) _).1

end Attended
end Veq
