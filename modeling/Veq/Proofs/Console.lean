import Veq.Console

/-! What a peer reads from the connection string of a program: exactly what the
program found out about itself. Two users who copy each other's strings have their
programs connect to each other, one as the initiator. -/

namespace Veq
open Rust Bincode

namespace SocketAddr

theorem fits (addr : SocketAddr) : codec.Fits addr := by
  cases addr with
  | v4 ip port =>
    have octets : ip.toNat < 256 ^ 4 := Nat.lt_of_lt_of_eq ip.isLt (by decide)
    exact ⟨Codec.fits_u32.mpr (by decide : 0 < 2 ^ 32), _, rfl, (ip, port), rfl, octets, port.toNat_lt⟩
  | v6 ip port =>
    have octets : ip.toNat < 256 ^ 16 := Nat.lt_of_lt_of_eq ip.isLt (by decide)
    exact ⟨Codec.fits_u32.mpr (by decide : 1 < 2 ^ 32), _, rfl, (ip, port), rfl, octets, port.toNat_lt⟩

end SocketAddr

namespace ConnectionData

theorem fits {data : ConnectionData} (distinct : data.connInfo.addresses.Nodup)
    (few : data.connInfo.addresses.length < 2 ^ 64) (short : data.connInfo.publicKey.length < 2 ^ 64) : codec.Fits data :=
  ⟨Uuid.fits data.id, ⟨distinct, few, fun addr _ => addr.fits⟩, short⟩

end ConnectionData

theorem readLine_append {line rest : List Char} (unbroken : '\n' ∉ line) :
    readLine (line ++ rest) = line ++ readLine rest := by
  induction line with
  | nil => rfl
  | cons char line ih =>
    have other : char ≠ '\n' := Ne.symm (List.ne_of_not_mem_cons unbroken)
    rw [List.cons_append, readLine, if_neg other, ih (List.not_mem_of_not_mem_cons unbroken), List.cons_append]

/-- A text with spaces added, alone or on the first line of what a user enters. -/
def Pasted (text input : List Char) : Prop :=
  ∃ line rest, input = line ++ rest ∧ (line.filter fun char => char != ' ') = text ∧
    (rest = [] ∨ ∃ later, rest = '\n' :: later)

namespace Armour

theorem filter_pasted {text input : List Char} (solid : '\n' ∉ text) (pasted : Pasted text input) :
    ((readLine input).filter fun char => !isBlank char) = text := by
  obtain ⟨line, rest, rfl, rfl, ended⟩ := pasted
  have unbroken : '\n' ∉ line := fun member => solid (List.mem_filter.mpr ⟨member, rfl⟩)
  have blank : ((readLine rest).filter fun char => !isBlank char) = [] := by
    rcases ended with rfl | ⟨later, rfl⟩
    · rfl
    · rfl
  rw [readLine_append unbroken, List.filter_append, blank, List.append_nil]
  apply List.filter_congr
  intro char member
  have other : char ≠ '\n' := fun same => unbroken (same ▸ member)
  simp [isBlank, other, bne]

theorem read_print (armour : Armour) {data : ConnectionData} (fits : ConnectionData.codec.Fits data) {input : List Char}
    (pasted : Pasted (armour.print data) input) : armour.read input = some data := by
  obtain ⟨solid, -⟩ := armour.solid (armour.compress (ConnectionData.codec.encode data))
  rw [read, filter_pasted solid pasted, armour.decode_encode]
  simp only [Option.bind_eq_bind, Option.bind_some, armour.decompress_compress]
  exact ConnectionData.codec.deserialize_encode fits

end Armour

namespace IpAddr

def family : IpAddr → Family
  | .v4 _ => .v4
  | .v6 _ => .v6

def withPort : IpAddr → UInt16 → SocketAddr
  | .v4 ip, port => .v4 ip port
  | .v6 ip, port => .v6 ip port

end IpAddr

namespace Surroundings

def Interfaces (host : Surroundings) (family : Family) (port : UInt16) (addr : SocketAddr) : Prop :=
  ∃ interfaces interface ip, host.interfaces = .ok interfaces ∧ interface ∈ interfaces ∧ ip ∈ interface ∧
    ip.family = family ∧ ip.withPort port = addr

/-- The answer of the STUN server, which IPv6 also takes with the port of the socket. -/
def Answer (host : Surroundings) (family : Family) (port : UInt16) (addr : SocketAddr) : Prop :=
  ∃ server external, host.stunAddr family = some server ∧ host.externalAddress server = .ok external ∧
    (addr = external ∨ family = .v6 ∧ addr = external.setPort port)

/-- The addresses that a host knows for one of its UDP sockets. -/
def Known (host : Surroundings) (family : Family) (udp : UdpSocket) (addr : SocketAddr) : Prop :=
  ∃ bound, udp.localAddr = .ok bound ∧
    (addr = bound ∨ host.Interfaces family bound.port addr ∨ host.Answer family bound.port addr)

def Published {σ : Type} [MaybeDual σ] (host : Surroundings) (socket : σ) (addr : SocketAddr) : Prop :=
  addr.ip.isUnspecified = false ∧
    ((∃ udp, MaybeDual.v4 socket = some udp ∧ host.Known .v4 udp addr) ∨
      ∃ udp, MaybeDual.v6 socket = some udp ∧ host.Known .v6 udp addr)

variable {host : Surroundings} {ips addrs : List SocketAddr} {addr bound : SocketAddr} {port : UInt16}

theorem mem_extend : addr ∈ extend ips addrs ↔ addr ∈ ips ∨ addr ∈ addrs := by
  unfold extend
  induction addrs generalizing ips with
  | nil => simp
  | cons first addrs ih =>
    rw [List.foldl_cons, ih, List.mem_insert_iff, List.mem_cons]
    tauto

theorem nodup_extend (distinct : ips.Nodup) : (extend ips addrs).Nodup := by
  unfold extend
  induction addrs generalizing ips with
  | nil => exact distinct
  | cons first addrs ih => exact ih distinct.insert

theorem mem_local {family : Family} {ipOf : IpAddr → Option SocketAddr}
    (keeps : ∀ ip addr, ipOf ip = some addr ↔ ip.family = family ∧ ip.withPort port = addr)
    (found : (host.interfaces.map fun interfaces => interfaces.flatten.filterMap ipOf) = .ok addrs) :
    addr ∈ addrs ↔ host.Interfaces family port addr := by
  cases shown : host.interfaces with
  | error error =>
    rw [shown] at found
    cases found
  | ok interfaces =>
    rw [shown] at found
    cases found
    simp only [List.mem_filterMap, List.mem_flatten, keeps, Interfaces, shown]
    constructor
    · rintro ⟨ip, ⟨interface, among, has⟩, same⟩
      exact ⟨interfaces, interface, ip, rfl, among, has, same⟩
    · rintro ⟨others, interface, ip, all, among, has, same⟩
      cases all
      exact ⟨ip, ⟨interface, among, has⟩, same⟩

theorem mem_localIpsV4 (found : host.localIpsV4 port = .ok addrs) : addr ∈ addrs ↔ host.Interfaces .v4 port addr :=
  mem_local (by rintro (ip | ip) addr <;> simp [IpAddr.family, IpAddr.withPort]) found

theorem mem_localIpsV6 (found : host.localIpsV6 port = .ok addrs) : addr ∈ addrs ↔ host.Interfaces .v6 port addr :=
  mem_local (by rintro (ip | ip) addr <;> simp [IpAddr.family, IpAddr.withPort]) found

theorem mem_publicV4 : addr ∈ host.publicV4 ↔ host.Answer .v4 port addr := by
  unfold publicV4 Answer
  cases host.stunAddr .v4 with
  | none => simp
  | some server => cases answer : host.externalAddress server <;> simp [answer, eq_comm]

theorem mem_publicV6 {udp : UdpSocket} (own : udp.localAddr = .ok bound) :
    addr ∈ (host.publicV6 udp).toOption.getD [] ↔ host.Answer .v6 bound.port addr := by
  unfold publicV6 Answer
  cases host.stunAddr .v6 with
  | none => simp [Except.toOption]
  | some server => cases answer : host.externalAddress server <;> simp [answer, own, Except.map, Except.toOption]

theorem mem_gathered {family : Family} {udp : UdpSocket} {found others : List SocketAddr} (own : udp.localAddr = .ok bound)
    (interfaces : addr ∈ found ↔ host.Interfaces family bound.port addr)
    (answer : addr ∈ others ↔ host.Answer family bound.port addr) :
    addr ∈ extend (extend (ips.insert bound) found) others ↔ addr ∈ ips ∨ host.Known family udp addr := by
  have known : host.Known family udp addr ↔
      addr = bound ∨ host.Interfaces family bound.port addr ∨ host.Answer family bound.port addr := by
    simp [Known, own]
  rw [mem_extend, mem_extend, List.mem_insert_iff, interfaces, answer, known]
  tauto

theorem nodup_gathered {found others : List SocketAddr} (distinct : ips.Nodup) :
    (extend (extend (ips.insert bound) found) others).Nodup :=
  nodup_extend (nodup_extend distinct.insert)

theorem discoverV4_some {udp : UdpSocket} {all : List SocketAddr} (found : host.discoverV4 ips (some udp) = .ok all) :
    ∃ bound addrs, udp.localAddr = .ok bound ∧ host.localIpsV4 bound.port = .ok addrs ∧
      all = extend (extend (ips.insert bound) addrs) host.publicV4 := by
  obtain ⟨bound, own, found⟩ := bind_ok.mp found
  obtain ⟨addrs, shown, found⟩ := bind_ok.mp found
  cases found
  exact ⟨bound, addrs, own, shown, rfl⟩

theorem discoverV6_some {udp : UdpSocket} {all : List SocketAddr} (found : host.discoverV6 ips (some udp) = .ok all) :
    ∃ bound addrs, udp.localAddr = .ok bound ∧ host.localIpsV6 bound.port = .ok addrs ∧
      all = extend (extend (ips.insert bound) addrs) ((host.publicV6 udp).toOption.getD []) := by
  obtain ⟨bound, own, found⟩ := bind_ok.mp found
  obtain ⟨addrs, shown, found⟩ := bind_ok.mp found
  cases found
  exact ⟨bound, addrs, own, shown, rfl⟩

theorem mem_discoverV4 {udp? : Option UdpSocket} {all : List SocketAddr} (found : host.discoverV4 ips udp? = .ok all) :
    addr ∈ all ↔ addr ∈ ips ∨ ∃ udp, udp? = some udp ∧ host.Known .v4 udp addr := by
  cases udp? with
  | none =>
    cases found
    simp
  | some udp =>
    obtain ⟨bound, addrs, own, shown, rfl⟩ := discoverV4_some found
    rw [mem_gathered own (mem_localIpsV4 shown) mem_publicV4]
    simp

theorem mem_discoverV6 {udp? : Option UdpSocket} {all : List SocketAddr} (found : host.discoverV6 ips udp? = .ok all) :
    addr ∈ all ↔ addr ∈ ips ∨ ∃ udp, udp? = some udp ∧ host.Known .v6 udp addr := by
  cases udp? with
  | none =>
    cases found
    simp
  | some udp =>
    obtain ⟨bound, addrs, own, shown, rfl⟩ := discoverV6_some found
    rw [mem_gathered own (mem_localIpsV6 shown) (mem_publicV6 own)]
    simp

theorem nodup_discoverV4 {udp? : Option UdpSocket} {all : List SocketAddr} (found : host.discoverV4 ips udp? = .ok all)
    (distinct : ips.Nodup) : all.Nodup := by
  cases udp? with
  | none =>
    cases found
    exact distinct
  | some udp =>
    obtain ⟨bound, addrs, -, -, rfl⟩ := discoverV4_some found
    exact nodup_gathered distinct

theorem nodup_discoverV6 {udp? : Option UdpSocket} {all : List SocketAddr} (found : host.discoverV6 ips udp? = .ok all)
    (distinct : ips.Nodup) : all.Nodup := by
  cases udp? with
  | none =>
    cases found
    exact distinct
  | some udp =>
    obtain ⟨bound, addrs, -, -, rfl⟩ := discoverV6_some found
    exact nodup_gathered distinct

variable {σ : Type} [MaybeDual σ] {socket : σ}

theorem nodup_discoverIps (found : host.discoverIps socket = .ok ips) : ips.Nodup := by
  obtain ⟨four, first, found⟩ := bind_ok.mp found
  obtain ⟨both, second, found⟩ := bind_ok.mp found
  cases found
  exact (nodup_discoverV6 second (nodup_discoverV4 first List.nodup_nil)).filter _

theorem mem_discoverIps (found : host.discoverIps socket = .ok ips) : addr ∈ ips ↔ host.Published socket addr := by
  obtain ⟨four, first, found⟩ := bind_ok.mp found
  obtain ⟨both, second, found⟩ := bind_ok.mp found
  cases found
  rw [List.mem_filter, mem_discoverV6 second, mem_discoverV4 first, Published]
  simp [and_comm]

end Surroundings

namespace ConnectionInfo

/-- Of two sockets with different keys, one is the initiator, whatever the two know
about each other. -/
theorem isInitiator_other {own info : ConnectionInfo} (different : own.publicKey ≠ info.publicKey) :
    own.isInitiator info = !info.isInitiator own := by
  unfold isInitiator
  by_cases before : own.publicKey < info.publicKey
  · simp [before, List.lt_asymm before]
  · have after : info.publicKey < own.publicKey := by
      by_contra neither
      exact different (List.le_antisymm (List.not_lt.mp neither) (List.not_lt.mp before))
    simp [before, after]

theorem one_initiates {info : Host → ConnectionInfo} (different : (info .first).publicKey ≠ (info .second).publicKey) :
    ∃ starter, ∀ side, (info side).isInitiator (info side.other) = decide (side = starter) := by
  have opposite := isInitiator_other different
  cases role : (info .second).isInitiator (info .first) with
  | true =>
    rw [role] at opposite
    refine ⟨.second, fun side => ?_⟩
    cases side with
    | first => exact opposite
    | second => exact role
  | false =>
    rw [role] at opposite
    refine ⟨.first, fun side => ?_⟩
    cases side with
    | first => exact opposite
    | second => exact role

end ConnectionInfo

namespace Console

variable {σ H S : Type} [MaybeDual σ]

/-- Two programs whose users enter each other's connection strings, with whatever
spaces were added and whatever follows the line: each reads the public key of the other and exactly the addresses
that the other has published, and the two connect under one session id, one
initiating and one responding. -/
theorem pasted_strings (armour : Armour) {host : Host → Surroundings} {socket : Host → σ} {keypair : Host → SnowKeypair}
    {drivers : Host → Driver σ H S}
    (made : ∀ side, Driver.fromSocket (host side) (socket side) (keypair side) = .ok (drivers side))
    (few : ∀ side, (drivers side).connectionInfo.addresses.length < 2 ^ 64)
    (short : ∀ side, (keypair side).publicKey.length < 2 ^ 64)
    (different : (keypair .first).publicKey ≠ (keypair .second).publicKey) {inputs : Host → List Char}
    (typed : ∀ side, Pasted (armour.print (ownData (drivers side.other))) (inputs side))
    (ephemeral : Nat) (oneTimeId : OneTimeId) :
    ∃ starter, ∀ side, ∃ peer, armour.read (inputs side) = some peer ∧
      peer.connInfo.publicKey = (keypair side.other).publicKey ∧ peer.connInfo.addresses.Nodup ∧
      (∀ addr, addr ∈ peer.connInfo.addresses ↔ (host side.other).Published (socket side.other) addr) ∧
      connect (drivers side) peer ephemeral oneTimeId =
        .operate (if side = starter then .initiate 0 peer.connInfo ephemeral oneTimeId
          else .respond 0 peer.connInfo oneTimeId) := by
  have keys : ∀ side, (drivers side).connectionInfo.publicKey = (keypair side).publicKey := by
    intro side
    obtain ⟨addresses, -, same⟩ := Driver.fromSocket_ok (made side)
    rw [same]
  have found : ∀ side, (host side).discoverIps (socket side) = .ok (drivers side).connectionInfo.addresses := by
    intro side
    obtain ⟨addresses, found, same⟩ := Driver.fromSocket_ok (made side)
    rw [found, same]
  have read : ∀ side, armour.read (inputs side) = some (ownData (drivers side.other)) := by
    intro side
    refine armour.read_print (ConnectionData.fits ?_ (few side.other) ?_) (typed side)
    · exact Surroundings.nodup_discoverIps (found side.other)
    · exact (keys side.other).symm ▸ short side.other
  obtain ⟨starter, roles⟩ : ∃ starter, ∀ side, (drivers side).connectionInfo.isInitiator (drivers side.other).connectionInfo =
      decide (side = starter) := by
    apply ConnectionInfo.one_initiates
    rwa [keys .first, keys .second]
  refine ⟨starter, fun side => ⟨_, read side, keys side.other, Surroundings.nodup_discoverIps (found side.other),
    fun addr => Surroundings.mem_discoverIps (found side.other), ?_⟩⟩
  simp only [connect, ConnectionInfo.connect, ownData, roles side, decide_eq_true_eq]
  split <;> rfl

def tabled {α β : Type} [BEq α] (table : List (α × β)) (rest : α → β) (value : α) : β :=
  (table.lookup value).getD (rest value)

def untabled {α β : Type} [BEq β] (table : List (α × β)) (rest : β → Option α) (value : β) : Option α :=
  (table.find? fun entry => entry.2 == value).map Prod.fst <|> rest value

theorem untabled_tabled {α β : Type} [BEq α] [LawfulBEq α] [BEq β] {table : List (α × β)} {rest : α → β}
    {back : β → Option α}
    (entries : ∀ entry ∈ table, table.find? (fun other => other.2 == entry.2) = some entry)
    (apart : ∀ value, table.find? (fun entry => entry.2 == rest value) = none)
    (inverse : ∀ value, back (rest value) = some value) (value : α) :
    untabled table back (tabled table rest value) = some value := by
  unfold tabled untabled
  cases found : table.lookup value with
  | none => simp [apart, inverse]
  | some image =>
    obtain ⟨before, after, split, -⟩ := List.lookup_eq_some_iff.mp found
    have listed : (value, image) ∈ table := by simp [split]
    simp [entries _ listed]

def frames : List (Bytes × Bytes) :=
  [([16, 0, 0, 0, 0, 0, 0, 0, 0, 0, 0, 0, 0, 0, 0, 0, 0, 0, 0, 0, 0, 0, 0, 0, 1, 0, 0, 0, 0, 0, 0, 0, 0, 0, 0, 0, 10, 0, 0, 5,
    160, 15, 1, 0, 0, 0, 0, 0, 0, 0, 1],
    [40, 181, 47, 253, 0, 96, 213, 0, 0, 144, 16, 0, 1, 10, 0, 0, 5, 160, 15, 1, 0, 0, 0, 0, 0, 0, 0, 1, 2, 0, 47, 134, 80, 0, 22]),
   ([16, 0, 0, 0, 0, 0, 0, 0, 0, 0, 0, 0, 0, 0, 0, 0, 0, 0, 0, 0, 0, 0, 0, 0, 1, 0, 0, 0, 0, 0, 0, 0, 0, 0, 0, 0, 10, 0, 0, 6,
    160, 15, 1, 0, 0, 0, 0, 0, 0, 0, 2],
    [40, 181, 47, 253, 0, 96, 213, 0, 0, 144, 16, 0, 1, 10, 0, 0, 6, 160, 15, 1, 0, 0, 0, 0, 0, 0, 0, 2, 2, 0, 47, 134, 80, 0, 22])]

def texts : List (Bytes × List Char) :=
  [([40, 181, 47, 253, 0, 96, 213, 0, 0, 144, 16, 0, 1, 10, 0, 0, 5, 160, 15, 1, 0, 0, 0, 0, 0, 0, 0, 1, 2, 0, 47, 134, 80, 0, 22],
    "KLUv/QBg1QAAkBAAAQoAAAWgDwEAAAAAAAAAAQIAL4ZQABY=".toList),
   ([40, 181, 47, 253, 0, 96, 213, 0, 0, 144, 16, 0, 1, 10, 0, 0, 6, 160, 15, 1, 0, 0, 0, 0, 0, 0, 0, 2, 2, 0, 47, 134, 80, 0, 22],
    "KLUv/QBg1QAAkBAAAQoAAAagDwEAAAAAAAAAAgIAL4ZQABY=".toList)]

def letter (byte : UInt8) : Char := Char.ofNat (256 + byte.toNat)

theorem letter_toNat (byte : UInt8) : (letter byte).toNat = 256 + byte.toNat := by
  have small := byte.toNat_lt
  have valid : (256 + byte.toNat).isValidChar := .inl (by omega)
  unfold letter Char.ofNat
  rw [dif_pos valid]
  rfl

theorem letter_inverse (byte : UInt8) : UInt8.ofNat (letter byte).toNat = byte := by
  rw [letter_toNat]
  apply UInt8.toNat_inj.mp
  simp

theorem letter_ne (byte : UInt8) {char : Char} (low : char.toNat < 256) : char ≠ letter byte := by
  rintro rfl
  rw [letter_toNat] at low
  omega

/-- zstd and base64 on the data of two programs. Other data is marked by a first
element that neither of them begins with. -/
def armour : Armour where
  compress := tabled frames fun data => 255 :: data
  decompress := untabled frames List.tail?
  decompress_compress := untabled_tabled (by decide) (by intro data; simp [frames]) (fun data => rfl)
  encode := tabled texts fun data => '=' :: data.map letter
  decode := untabled texts fun text => text.tail?.map (List.map fun char => UInt8.ofNat char.toNat)
  decode_encode := untabled_tabled (by decide) (by intro data; simp [texts]) fun data => by
    have back : ((fun char => UInt8.ofNat char.toNat) ∘ letter) = id := funext letter_inverse
    simp [back]
  solid data := by
    unfold tabled
    cases found : texts.lookup data with
    | none =>
      have low : ∀ char : Char, char.toNat < 256 → char ∉ data.map letter := by
        intro char low member
        obtain ⟨byte, -, same⟩ := List.mem_map.mp member
        exact letter_ne byte low same.symm
      simp [low '\n' (by decide), low ' ' (by decide)]
    | some text =>
      obtain ⟨before, after, split, -⟩ := List.lookup_eq_some_iff.mp found
      have solid : ∀ entry ∈ texts, '\n' ∉ entry.2 ∧ ' ' ∉ entry.2 := by decide
      exact solid (data, text) (by simp [split])

def interfaces (ip : BitVec 32) : Surroundings := ⟨.ok [[.v4 ip]], none, fun _ => .error .system⟩

def bound : VersionedSocket := .v4 ⟨.ok (.v4 0 4000), [], none, [], fun _ => false, fun _ => false⟩

/-- Two programs on one network. The second user's text has picked up spaces, and a
first message follows it. -/
def users : Host → Surroundings
  | .first => interfaces 0x0a000005
  | .second => interfaces 0x0a000006

def keypairs : Host → SnowKeypair
  | .first => ⟨[1], [7]⟩
  | .second => ⟨[2], [8]⟩

def entered : Host → List Char
  | .first => "KLUv/QBg1QAAkBAAAQoAAAagDwEAAAAAAAAAAgIAL4ZQABY=\n".toList
  | .second => " KLUv/QBg1QAAkBAAAQoAAAWg DwEAAAAAAAAAAQIAL4ZQABY= \nhello\n".toList

def program (side : Host) : Driver VersionedSocket Bool Unit :=
  ⟨⟨match side with
    | .first => [.v4 0x0a000005 4000]
    | .second => [.v4 0x0a000006 4000], (keypairs side).publicKey⟩, bound, .new (keypairs side), [], [], []⟩

theorem pasted_strings_lan : ∃ starter, ∀ side, ∃ peer, armour.read (entered side) = some peer ∧
    peer.connInfo.publicKey = (keypairs side.other).publicKey ∧ peer.connInfo.addresses.Nodup ∧
    (∀ addr, addr ∈ peer.connInfo.addresses ↔ (users side.other).Published bound addr) ∧
    connect (program side) peer 30 31 =
      .operate (if side = starter then .initiate 0 peer.connInfo 30 31 else .respond 0 peer.connInfo 31) := by
  have made : ∀ side, Driver.fromSocket (users side) bound (keypairs side) = .ok (program side) := by
    rintro (_ | _) <;> rfl
  have few : ∀ side, (program side).connectionInfo.addresses.length < 2 ^ 64 := by
    rintro (_ | _) <;> decide
  have short : ∀ side, (keypairs side).publicKey.length < 2 ^ 64 := by
    rintro (_ | _) <;> decide
  have typed : ∀ side, Pasted (armour.print (ownData (program side.other))) (entered side) := by
    rintro (_ | _)
    · exact ⟨"KLUv/QBg1QAAkBAAAQoAAAagDwEAAAAAAAAAAgIAL4ZQABY=".toList, ['\n'], by decide, by decide, .inr ⟨[], rfl⟩⟩
    · exact ⟨" KLUv/QBg1QAAkBAAAQoAAAWg DwEAAAAAAAAAAQIAL4ZQABY= ".toList, "\nhello\n".toList, by decide, by decide,
        .inr ⟨"hello\n".toList, by decide⟩⟩
  exact pasted_strings armour made few short (by decide) typed 30 31

end Console
end Veq
