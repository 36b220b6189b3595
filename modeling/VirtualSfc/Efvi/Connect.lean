import VirtualSfc.Base.Memory
import VirtualSfc.Base.Run
import VirtualSfc.Base.Text

/-! The filter of a virtual interface and its cookie. Sockets of any number of
processes share one VI and one directory; the cookie file is created, mapped and
removed by name, and a socket keeps the file it mapped. -/
namespace VirtualSfc.Efvi.Connect
open Base.Memory Base.Run Base.Text

structure Ipv4 where
  a : UInt8
  b : UInt8
  c : UInt8
  d : UInt8
deriving DecidableEq, Repr

def Ipv4.text (addr : Ipv4) : List Char :=
  addr.a.toNat.repr.toList ++ '.' :: (addr.b.toNat.repr.toList ++ '.' ::
    (addr.c.toNat.repr.toList ++ '.' :: addr.d.toNat.repr.toList))

def Ipv4.bytes (addr : Ipv4) : List UInt8 := [addr.a, addr.b, addr.c, addr.d]

def be16 (value : Nat) : List UInt8 := [UInt8.ofNat (value / 256), UInt8.ofNat value]

structure Endpoint where
  process : Nat
  localAddr : Ipv4
  localPort : UInt16
  remoteAddr : Ipv4
  remotePort : UInt16
  localMac : Vector UInt8 8
  remoteMac : Vector UInt8 8
deriving DecidableEq, Repr

/-- `struct filter_cookie`: `ip` up to its first NUL. -/
structure FilterCookie where
  filterId : Nat
  ip : List Char
  port : UInt16
deriving DecidableEq, Repr

def zeroCookie : FilterCookie := ⟨0, [], 0⟩

structure Filter where
  id : Nat
  addr : Ipv4
  port : UInt16
deriving DecidableEq, Repr

/-- `p_filter_cookie` is the file that is mapped there. -/
structure VEfviSocket where
  alive : Bool
  isRemapped : Bool
  pFilterCookie : Option Nat
deriving DecidableEq, Repr

/-- `path` is the file that `/mnt/vi/filter_cookie` names, `filters` are those the
sockets installed, `used` the ids ever given to one, and `txBuf` is the TX buffer
of the shared queue. -/
structure World where
  path : Option Nat
  inodes : Nat → FilterCookie
  nextInode : Nat
  filters : List Filter
  used : List Nat
  sockets : Nat → VEfviSocket
  txBuf : Nat → UInt8

def World.start (txBuf : Nat → UInt8) : World where
  path := none
  inodes := fun _ => zeroCookie
  nextInode := 0
  filters := []
  used := []
  sockets := fun _ => ⟨true, false, none⟩
  txBuf := txBuf

def World.setSocket (world : World) (i : Nat) (socket : VEfviSocket) : World :=
  { world with sockets := Function.update world.sockets i socket }

/-- `ef_vi_filter_add`, which gives out fresh ids: an answer that is not fresh
stands for a refusal. -/
def World.efViFilterAdd (world : World) (answer : Except Int Nat) : Except Int Nat :=
  match answer with
  | .error rc => .error rc
  | .ok id => if id = 0 ∨ id ∈ world.used then .error (-17) else .ok id

/-- `ef_vi_filter_del`, where the driver does not know an id that is not installed. -/
def World.efViFilterDel (world : World) (id : Nat) (answer : Int) : Int :=
  if answer ≠ 0 then answer
  else if id ∈ world.filters.map (·.id) then 0 else -22

/-- `init_eth_hdr`, which copies 8 bytes of each address. -/
def initEthHdr (buf : Nat → UInt8) (shost dhost : List UInt8) : Nat → UInt8 :=
  store (store (store buf 6 shost) 0 dhost) 12 [8, 0]

def initUdpPkt (buf : Nat → UInt8) (data : List UInt8) (laddr raddr : Ipv4)
    (sport dport : UInt16) : Nat → UInt8 :=
  let ip4 := [0x45, 0] ++ be16 (28 + data.length) ++ [0, 0, 0, 0, 64, 17, 0, 0] ++
    laddr.bytes ++ raddr.bytes
  let udp := be16 sport.toNat ++ be16 dport.toNat ++ be16 (8 + data.length) ++ [0, 0]
  store (store (store buf 14 ip4) 34 udp) 42 data

/-- The headers that `connect` writes, after `ef_vi_get_mac` put the VI's address
into `local_mac`. -/
def Endpoint.writeHeaders (endpoint : Endpoint) (viMac : Vector UInt8 6) (buf : Nat → UInt8) :
    Nat → UInt8 :=
  initUdpPkt
    (initEthHdr buf (viMac.toList ++ endpoint.localMac.toList.drop 6) endpoint.remoteMac.toList)
    [] endpoint.localAddr endpoint.remoteAddr endpoint.localPort endpoint.remotePort

inductive Outcome where
  | returned (value : Bool)
  | threw (message : String)
deriving DecidableEq, Repr

def strncpy (addr : List Char) : List Char := addr.take 15

def strncmp (addr ip : List Char) : Bool := addr.take 15 = ip.take 15

def FilterCookie.matches (cookie : FilterCookie) (endpoint : Endpoint) : Bool :=
  strncmp endpoint.localAddr.text cookie.ip && cookie.port == endpoint.localPort

section Sockets

variable (endpoints : Nat → Endpoint) (viMac : Vector UInt8 6)

def World.remapVi (world : World) (i : Nat) : World :=
  let socket := world.sockets i
  if socket.isRemapped then world
  else world.setSocket i { socket with
    isRemapped := true
    pFilterCookie := match world.path with
      | some inode => some inode
      | none => socket.pFilterCookie }

/-- The cookie that `connect` works on: the mapped one, else the file of that name,
created if it is missing. -/
def World.mapCookie (world : World) (i : Nat) : World × Nat :=
  let socket := world.sockets i
  match socket.pFilterCookie with
  | some inode => (world, inode)
  | none =>
      match world.path with
      | some inode => (world.setSocket i { socket with pFilterCookie := some inode }, inode)
      | none =>
          ({ world.setSocket i { socket with pFilterCookie := some world.nextInode } with
              path := some world.nextInode
              inodes := Function.update world.inodes world.nextInode zeroCookie
              nextInode := world.nextInode + 1 }, world.nextInode)

def World.addFilter (world : World) (i inode : Nat) (answer : Except Int Nat) :
    World × Outcome :=
  let endpoint := endpoints i
  let cookie := world.inodes inode
  if cookie.filterId = 0 then
    match world.efViFilterAdd answer with
    | .error rc => (world, .threw ("add filter failed rc=" ++ toString rc))
    | .ok id =>
        ({ world with
            filters := world.filters ++ [⟨id, endpoint.localAddr, endpoint.localPort⟩]
            used := id :: world.used
            inodes := Function.update world.inodes inode
              ⟨id, strncpy endpoint.localAddr.text, endpoint.localPort⟩ }, .returned true)
  else (world, .returned (cookie.matches endpoint))

def World.prepare (world : World) (i : Nat) : World × Nat :=
  let world := world.remapVi i
  { world with txBuf := (endpoints i).writeHeaders viMac world.txBuf }.mapCookie i

def World.connect (world : World) (i : Nat) (answer : Except Int Nat) : World × Outcome :=
  let (world, inode) := world.prepare endpoints viMac i
  world.addFilter endpoints i inode answer

def World.delEfviFilter (world : World) (i : Nat) (answer : Int) : World × Bool :=
  let socket := world.sockets i
  match socket.pFilterCookie with
  | none => (world, true)
  | some inode =>
      let id := (world.inodes inode).filterId
      if id ≠ 0 then
        if world.efViFilterDel id answer ≠ 0 then (world, false)
        else
          ({ world.setSocket i { socket with pFilterCookie := none } with
              filters := world.filters.filter (·.id ≠ id), path := none }, true)
      else (world, true)

def World.close (world : World) (i : Nat) (answer : Int) : World × Bool :=
  world.delEfviFilter i answer

/-- The calls on the sockets, each with the driver's answer, and the end of a
process, which runs no destructor. -/
inductive Event where
  | connect (i : Nat) (answer : Except Int Nat)
  | close (i : Nat) (answer : Int)
  | destroy (i : Nat) (answer : Int)
  | restart (process : Nat)

def step (world : World) : Event → World
  | .connect i answer =>
      if (world.sockets i).alive then (world.connect endpoints viMac i answer).1 else world
  | .close i answer => if (world.sockets i).alive then (world.close i answer).1 else world
  | .destroy i answer =>
      if (world.sockets i).alive then
        let world := (world.delEfviFilter i answer).1
        world.setSocket i { world.sockets i with alive := false }
      else world
  | .restart process =>
      { world with sockets := fun i => { world.sockets i with
          alive := (world.sockets i).alive && (endpoints i).process != process } }

end Sockets

/-! The Ethernet header. -/

/-- What a header is meant to be, without touching what follows it. -/
structure EthHdr (shost dhost : List UInt8) (before after : Nat → UInt8) : Prop where
  destination : load after 0 6 = dhost.take 6
  source : load after 6 6 = shost.take 6
  etherType : load after 12 2 = [8, 0]
  frame : ∀ address, 14 ≤ address → after address = before address

theorem initEthHdr_destination (buf : Nat → UInt8) (shost : List UInt8) {dhost : List UInt8}
    (h : dhost.length = 8) : load (initEthHdr buf shost dhost) 0 6 = dhost.take 6 := by
  rw [initEthHdr, load_store_beside _ (.inl (by decide))]
  exact load_store_inside _ 0 0 6 dhost (by omega)

theorem initEthHdr_source (buf : Nat → UInt8) {shost dhost : List UInt8}
    (hshost : shost.length = 8) (hdhost : dhost.length = 8) :
    load (initEthHdr buf shost dhost) 6 6 = dhost.drop 6 ++ (shost.drop 2).take 4 := by
  have hover : load (initEthHdr buf shost dhost) 6 2 = dhost.drop 6 := by
    rw [initEthHdr, load_store_beside _ (.inl (by decide))]
    refine (load_store_inside _ 0 6 2 dhost (by omega)).trans ?_
    exact List.take_of_length_le (by rw [List.length_drop, hdhost])
  have hrest : load (initEthHdr buf shost dhost) 8 4 = (shost.drop 2).take 4 := by
    rw [initEthHdr, load_store_beside _ (.inl (by decide)), load_store_beside _ (.inr (by omega))]
    exact load_store_inside _ 6 2 4 shost (by omega)
  rw [load_append _ 6 2 4, hover, hrest]

/-- The header is right exactly when the two bytes behind the destination address
are the first two of the source address. -/
theorem initEthHdr_iff (buf : Nat → UInt8) (shost dhost : Vector UInt8 8) :
    EthHdr shost.toList dhost.toList buf (initEthHdr buf shost.toList dhost.toList) ↔
      dhost[6] = shost[0] ∧ dhost[7] = shost[1] := by
  have hsplit : shost.toList.take 6 = [shost[0], shost[1]] ++ (shost.toList.drop 2).take 4 := by
    apply List.ext_getElem
    · simp
    · intro i hi _
      rw [List.length_take, Vector.length_toList] at hi
      match i with
      | 0 => simp
      | 1 => simp
      | i + 2 => simp [Nat.add_comm 2]
  have hdrop : dhost.toList.drop 6 = [dhost[6], dhost[7]] := by
    apply List.ext_getElem
    · simp
    · intro i hi _
      rw [List.length_drop, Vector.length_toList] at hi
      match i with
      | 0 => simp
      | 1 => simp
  have hsource : load (initEthHdr buf shost.toList dhost.toList) 6 6 = shost.toList.take 6 ↔
      dhost[6] = shost[0] ∧ dhost[7] = shost[1] := by
    rw [initEthHdr_source buf shost.length_toList dhost.length_toList, hsplit,
      List.append_left_inj, hdrop]
    simp
  refine ⟨fun h => hsource.mp h.source, fun h => ⟨?_, hsource.mpr h, ?_, ?_⟩⟩
  · exact initEthHdr_destination buf _ dhost.length_toList
  · exact load_store_self _ 12 [8, 0]
  · intro address haddress
    rw [initEthHdr, store_beside _ (.inr (by simpa using haddress)),
      store_beside _ (.inr (by rw [Vector.length_toList]; omega)),
      store_beside _ (.inr (by rw [Vector.length_toList]; omega))]

theorem initEthHdr_overlap :
    ¬ EthHdr [0x02, 0x42, 0xac, 0x10, 0x85, 0x64, 0, 0] [0x02, 0x42, 0xac, 0x01, 0x02, 0x03, 0, 0]
      (fun _ => 0)
      (initEthHdr (fun _ => 0) [0x02, 0x42, 0xac, 0x10, 0x85, 0x64, 0, 0]
        [0x02, 0x42, 0xac, 0x01, 0x02, 0x03, 0, 0]) := by
  intro h
  exact absurd h.source (by decide)

/-! Addresses as text. -/

theorem repr_byte (byte : UInt8) :
    byte.toNat.repr.toList.length ≤ 3 ∧ '.' ∉ byte.toNat.repr.toList := by
  have hall : ∀ n < 256, n.repr.toList.length ≤ 3 ∧ '.' ∉ n.repr.toList := by decide +kernel
  exact hall _ byte.toNat_lt

theorem repr_byte_inj {left right : UInt8}
    (h : left.toNat.repr.toList = right.toNat.repr.toList) : left = right :=
  UInt8.toNat_inj.mp (Nat.repr_inj.mp (String.toList_inj.mp h))

theorem Ipv4.length_text (addr : Ipv4) : addr.text.length ≤ 15 := by
  have ha := (repr_byte addr.a).1
  have hb := (repr_byte addr.b).1
  have hc := (repr_byte addr.c).1
  have hd := (repr_byte addr.d).1
  simp only [text, List.length_append, List.length_cons]
  omega

theorem Ipv4.text_inj {left right : Ipv4} : left.text = right.text ↔ left = right := by
  constructor
  · intro h
    simp only [text] at h
    rw [append_separator_inj (repr_byte _).2 (repr_byte _).2,
      append_separator_inj (repr_byte _).2 (repr_byte _).2,
      append_separator_inj (repr_byte _).2 (repr_byte _).2] at h
    rcases h with ⟨ha, hb, hc, hd⟩
    cases left
    cases right
    simp only [Ipv4.mk.injEq]
    exact ⟨repr_byte_inj ha, repr_byte_inj hb, repr_byte_inj hc, repr_byte_inj hd⟩
  · intro h
    rw [h]

def Filter.cookie (filter : Filter) : FilterCookie :=
  ⟨filter.id, strncpy filter.addr.text, filter.port⟩

theorem Filter.matches_cookie (filter : Filter) (endpoint : Endpoint) :
    filter.cookie.matches endpoint ↔
      filter.addr = endpoint.localAddr ∧ filter.port = endpoint.localPort := by
  simp only [FilterCookie.matches, cookie, strncmp, strncpy,
    List.take_of_length_le (Ipv4.length_text _), Bool.and_eq_true, decide_eq_true_eq,
    beq_iff_eq, Ipv4.text_inj]
  rw [@eq_comm _ endpoint.localAddr]

/-! The invariant. -/

/-- At most one filter is installed, and its cookie is the file at the path. A
file that is no longer there keeps the id of a filter that is gone. -/
structure World.Valid (world : World) : Prop where
  path_lt : ∀ n, world.path = some n → n < world.nextInode
  mapped_lt : ∀ i n, (world.sockets i).pFilterCookie = some n → n < world.nextInode
  unmapped : ∀ i, (world.sockets i).isRemapped = false → (world.sockets i).pFilterCookie = none
  orphan : ∀ n < world.nextInode, world.path ≠ some n →
    (world.inodes n).filterId ≠ 0 ∧ (world.inodes n).filterId ∉ world.filters.map (·.id)
  ids_used : ∀ n < world.nextInode,
    (world.inodes n).filterId = 0 ∨ (world.inodes n).filterId ∈ world.used
  installed : (world.filters = [] ∧ ∀ n, world.path = some n → (world.inodes n).filterId = 0) ∨
    ∃ n filter, world.path = some n ∧ world.filters = [filter] ∧
      world.inodes n = filter.cookie ∧ filter.id ≠ 0

theorem start_valid (txBuf : Nat → UInt8) : (World.start txBuf).Valid where
  path_lt := by simp [World.start]
  mapped_lt := by simp [World.start]
  unmapped := by simp [World.start]
  orphan := by simp [World.start]
  ids_used := by simp [World.start]
  installed := by simp [World.start]

theorem World.Valid.setSocket {world : World} (h : world.Valid) {i : Nat} {socket : VEfviSocket}
    (hmapped : ∀ n, socket.pFilterCookie = some n → n < world.nextInode)
    (hunmapped : socket.isRemapped = false → socket.pFilterCookie = none) :
    (world.setSocket i socket).Valid where
  path_lt := h.path_lt
  mapped_lt := by
    intro j n hj
    by_cases hji : j = i
    · rw [hji] at hj
      exact hmapped n (by simpa [World.setSocket] using hj)
    · exact h.mapped_lt j n (by simpa [World.setSocket, hji] using hj)
  unmapped := by
    intro j hj
    by_cases hji : j = i
    · rw [hji] at hj ⊢
      simpa [World.setSocket] using hunmapped (by simpa [World.setSocket] using hj)
    · simpa [World.setSocket, hji] using h.unmapped j (by simpa [World.setSocket, hji] using hj)
  orphan := h.orphan
  ids_used := h.ids_used
  installed := h.installed

theorem World.Valid.setTxBuf {world : World} (h : world.Valid) (txBuf : Nat → UInt8) :
    { world with txBuf := txBuf }.Valid :=
  ⟨h.path_lt, h.mapped_lt, h.unmapped, h.orphan, h.ids_used, h.installed⟩

theorem World.Valid.path_of_zero {world : World} (h : world.Valid) {n : Nat}
    (hn : n < world.nextInode) (hzero : (world.inodes n).filterId = 0) :
    world.path = some n ∧ world.filters = [] := by
  have hpath : world.path = some n := by
    by_contra hne
    exact (h.orphan n hn hne).1 hzero
  rcases h.installed with ⟨hnone, _⟩ | ⟨m, filter, hm, _, hcookie, hid⟩
  · exact ⟨hpath, hnone⟩
  · rw [hpath, Option.some.injEq] at hm
    rw [hm, hcookie] at hzero
    exact absurd hzero hid

structure Prepared (world mid : World) (i n : Nat) : Prop where
  valid : mid.Valid
  filters : mid.filters = world.filters
  used : mid.used = world.used
  inodes : ∀ m < world.nextInode, mid.inodes m = world.inodes m
  own : (mid.sockets i).pFilterCookie = some n
  kept : ∀ j m, (world.sockets j).pFilterCookie = some m →
    (mid.sockets j).pFilterCookie = some m
  alive : ∀ j, (mid.sockets j).alive = (world.sockets j).alive
  found : (world.sockets i).pFilterCookie = some n ∧ mid.path = world.path ∨
    (world.sockets i).pFilterCookie = none ∧ mid.path = some n

section Steps

variable (endpoints : Nat → Endpoint) (viMac : Vector UInt8 6)

theorem remapVi_spec {world : World} (h : world.Valid) (i : Nat) :
    ∃ socket, world.remapVi i = world.setSocket i socket ∧
      socket.alive = (world.sockets i).alive ∧ socket.isRemapped = true ∧
      (socket.pFilterCookie = (world.sockets i).pFilterCookie ∨
        (world.sockets i).pFilterCookie = none ∧ socket.pFilterCookie = world.path) := by
  simp only [World.remapVi]
  split
  · rename_i hremapped
    exact ⟨world.sockets i, by simp [World.setSocket], rfl, hremapped, .inl rfl⟩
  · rename_i hremapped
    have hnone := h.unmapped i (by simpa using hremapped)
    refine ⟨_, rfl, rfl, rfl, .inr ⟨hnone, ?_⟩⟩
    cases world.path with
    | none => exact hnone
    | some n => rfl

theorem World.Valid.create {world : World} (h : world.Valid) (hpath : world.path = none) :
    { world with
      path := some world.nextInode
      inodes := Function.update world.inodes world.nextInode zeroCookie
      nextInode := world.nextInode + 1 }.Valid where
  path_lt := by simp
  mapped_lt := fun j n hj => Nat.lt_succ_of_lt (h.mapped_lt j n hj)
  unmapped := h.unmapped
  orphan := by
    intro n hn hne
    have hlt : n ≠ world.nextInode := fun heq => hne (by rw [heq])
    simpa [hlt] using h.orphan n (by simp at hn; omega) (by simp [hpath])
  ids_used := by
    intro n hn
    by_cases hnew : n = world.nextInode
    · simp [hnew, zeroCookie]
    · simpa [hnew] using h.ids_used n (by simp at hn; omega)
  installed := by
    left
    rcases h.installed with ⟨hnone, _⟩ | ⟨n, _, hn, _⟩
    · simp [hnone, zeroCookie]
    · simp [hpath] at hn

theorem mapCookie_spec {world : World} (h : world.Valid) (i : Nat)
    (hremapped : (world.sockets i).isRemapped = true) :
    Prepared world (world.mapCookie i).1 i (world.mapCookie i).2 := by
  simp only [World.mapCookie]
  split
  · rename_i n hn
    exact ⟨h, rfl, rfl, fun _ _ => rfl, hn, fun _ _ hm => hm, fun _ => rfl, .inl ⟨hn, rfl⟩⟩
  · rename_i hnone
    have hkept (socket : VEfviSocket) (j m : Nat)
        (hm : (world.sockets j).pFilterCookie = some m) :
        ((world.setSocket i socket).sockets j).pFilterCookie = some m := by
      have hji : j ≠ i := by
        intro heq
        rw [heq, hnone] at hm
        contradiction
      simpa [World.setSocket, hji] using hm
    have halive (inode j : Nat) :
        ((world.setSocket i { world.sockets i with pFilterCookie := some inode }).sockets j).alive =
          (world.sockets j).alive := by
      by_cases hji : j = i <;> simp [World.setSocket, hji]
    split
    · rename_i n hn
      refine ⟨h.setSocket ?_ ?_, rfl, rfl, fun _ _ => rfl, ?_, hkept _, halive n,
        .inr ⟨hnone, hn⟩⟩
      · intro m hm
        exact h.path_lt m (by rw [hn]; exact hm)
      · simp [hremapped]
      · simp [World.setSocket]
    · rename_i hpath
      refine ⟨(h.create hpath).setSocket ?_ ?_, rfl, rfl, ?_, ?_, hkept _, halive _,
        .inr ⟨hnone, rfl⟩⟩
      · simp
      · simp [hremapped]
      · intro m hm
        simp [Nat.ne_of_lt hm]
      · simp [World.setSocket]

theorem prepare_spec {world : World} (h : world.Valid) (i : Nat) :
    Prepared world (world.prepare endpoints viMac i).1 i
      (world.prepare endpoints viMac i).2 := by
  rcases remapVi_spec h i with ⟨socket, hremap, halive, hremapped, hcookie⟩
  have hvalid : (world.setSocket i socket).Valid := by
    apply h.setSocket
    · intro n hn
      rcases hcookie with hsame | ⟨_, hpath⟩
      · exact h.mapped_lt i n (hsame ▸ hn)
      · exact h.path_lt n (hpath ▸ hn)
    · simp [hremapped]
  have hmap := mapCookie_spec
    (hvalid.setTxBuf ((endpoints i).writeHeaders viMac (world.setSocket i socket).txBuf)) i
    (by simp [World.setSocket, hremapped])
  simp only [World.prepare, hremap]
  refine ⟨hmap.valid, hmap.filters, hmap.used, hmap.inodes, hmap.own, ?_, ?_, ?_⟩
  · intro j m hm
    apply hmap.kept
    by_cases hji : j = i
    · rw [hji] at hm ⊢
      rcases hcookie with hsame | ⟨hnone, _⟩
      · simpa [World.setSocket, hsame] using hm
      · simp [hnone] at hm
    · simpa [World.setSocket, hji] using hm
  · intro j
    rw [hmap.alive]
    by_cases hji : j = i
    · simp [World.setSocket, hji, halive]
    · simp [World.setSocket, hji]
  · rcases hmap.found with ⟨hown, hpath⟩ | ⟨hown, hpath⟩
    · rcases hcookie with hsame | ⟨hnone, hold⟩
      · exact .inl ⟨by simpa [World.setSocket, hsame] using hown, hpath⟩
      · refine .inr ⟨hnone, hpath.trans ?_⟩
        simpa [World.setSocket, hold] using hown
    · rcases hcookie with hsame | ⟨hnone, _⟩
      · exact .inr ⟨by simpa [World.setSocket, hsame] using hown, hpath⟩
      · exact .inr ⟨hnone, hpath⟩

/-! `connect`. -/

def World.serves (world : World) (endpoint : Endpoint) : Prop :=
  ∃ id, world.filters = [⟨id, endpoint.localAddr, endpoint.localPort⟩]

theorem efViFilterAdd_ok {world : World} {answer : Except Int Nat} {id : Nat}
    (h : world.efViFilterAdd answer = .ok id) : id ≠ 0 ∧ id ∉ world.used := by
  unfold World.efViFilterAdd at h
  split at h
  · contradiction
  · split at h
    · contradiction
    · rename_i hfresh
      rw [Except.ok.inj h] at hfresh
      exact not_or.mp hfresh

theorem World.Valid.install {world : World} (h : world.Valid) {n : Nat}
    (hn : n < world.nextInode) (hzero : (world.inodes n).filterId = 0) (filter : Filter)
    (hid : filter.id ≠ 0) (hfresh : filter.id ∉ world.used) :
    { world with
      filters := world.filters ++ [filter]
      used := filter.id :: world.used
      inodes := Function.update world.inodes n filter.cookie }.Valid := by
  rcases h.path_of_zero hn hzero with ⟨hpath, hnone⟩
  refine ⟨h.path_lt, h.mapped_lt, h.unmapped, ?_, ?_, .inr ⟨n, filter, hpath, ?_, ?_, hid⟩⟩
  · intro m hm hne
    have hmn : m ≠ n := fun heq => hne (by rw [heq]; exact hpath)
    have hstale := (h.orphan m hm hne).1
    have hused := (h.ids_used m hm).resolve_left hstale
    simp only [Function.update_of_ne hmn, hnone, List.nil_append, List.map_cons, List.map_nil,
      List.mem_singleton]
    exact ⟨hstale, fun heq => hfresh (heq ▸ hused)⟩
  · intro m hm
    by_cases hmn : m = n
    · simp [hmn, Filter.cookie]
    · simp only [Function.update_of_ne hmn]
      exact (h.ids_used m hm).imp_right (List.mem_cons_of_mem _)
  · simp [hnone]
  · simp

theorem addFilter_valid {world : World} (h : world.Valid) {i n : Nat}
    (hn : n < world.nextInode) (answer : Except Int Nat) :
    (world.addFilter endpoints i n answer).1.Valid := by
  simp only [World.addFilter]
  split
  · rename_i hzero
    split
    · exact h
    · rename_i id hid
      rcases efViFilterAdd_ok hid with ⟨hne, hfresh⟩
      exact h.install hn hzero ⟨id, _, _⟩ hne hfresh
  · exact h

theorem connect_valid {world : World} (h : world.Valid) (i : Nat) (answer : Except Int Nat) :
    (world.connect endpoints viMac i answer).1.Valid := by
  have hprepared := prepare_spec endpoints viMac h i
  exact addFilter_valid endpoints hprepared.valid
    (hprepared.valid.mapped_lt _ _ hprepared.own) answer

theorem World.Valid.serves_of_matches {world : World} (h : world.Valid) {n : Nat}
    {endpoint : Endpoint} (hpath : world.path = some n)
    (hne : (world.inodes n).filterId ≠ 0) (hmatches : (world.inodes n).matches endpoint) :
    world.serves endpoint := by
  rcases h.installed with ⟨_, hzero⟩ | ⟨m, filter, hm, hfilters, hcookie, _⟩
  · exact absurd (hzero n hpath) hne
  · rw [hpath, Option.some.injEq] at hm
    rw [hm, hcookie, Filter.matches_cookie] at hmatches
    refine ⟨filter.id, ?_⟩
    rw [hfilters, ← hmatches.1, ← hmatches.2]

theorem addFilter_serves {world : World} (h : world.Valid) {i n : Nat}
    (hn : n < world.nextInode) (answer : Except Int Nat) :
    ((world.addFilter endpoints i n answer).2 = .returned true →
        (world.addFilter endpoints i n answer).1.serves (endpoints i)) ↔
      (world.path = some n ∨ ¬ (world.inodes n).matches (endpoints i) ∨
        world.serves (endpoints i)) := by
  simp only [World.addFilter]
  split
  · rename_i hzero
    rcases h.path_of_zero hn hzero with ⟨hpath, hnone⟩
    split
    · simp [hpath]
    · simp [hpath, World.serves, hnone]
  · rename_i hne
    simp only [Outcome.returned.injEq]
    constructor
    · intro hgood
      by_cases hmatches : (world.inodes n).matches (endpoints i)
      · exact .inr (.inr (hgood hmatches))
      · exact .inr (.inl hmatches)
    · rintro (hpath | hother | hserves) hmatches
      · exact h.serves_of_matches hpath hne hmatches
      · exact absurd hmatches hother
      · exact hserves

/-- The socket has no cookie mapped, or maps the file at the path, or a file for
another address, or the VI's filter is for its own address anyway. -/
def World.current (world : World) (i : Nat) : Prop :=
  ∀ n, (world.sockets i).pFilterCookie = some n →
    world.path = some n ∨ ¬ (world.inodes n).matches (endpoints i) ∨
      world.serves (endpoints i)

theorem connect_serves_iff {world : World} (h : world.Valid) (i : Nat)
    (answer : Except Int Nat) :
    ((world.connect endpoints viMac i answer).2 = .returned true →
        (world.connect endpoints viMac i answer).1.serves (endpoints i)) ↔
      world.current endpoints i := by
  have hprepared := prepare_spec endpoints viMac h i
  have hn := hprepared.valid.mapped_lt _ _ hprepared.own
  simp only [World.connect]
  rw [addFilter_serves endpoints hprepared.valid hn, World.current]
  rcases hprepared.found with ⟨hown, hpath⟩ | ⟨hnone, hpath⟩
  · have hinodes := hprepared.inodes _ (h.mapped_lt _ _ hown)
    simp only [hown, Option.some.injEq, forall_eq', hpath, hinodes, World.serves,
      hprepared.filters]
  · simp [hnone, hpath]

/-! `close`, the destructor and whole runs. -/

theorem delEfviFilter_cases {world : World} (h : world.Valid) (i : Nat) (answer : Int) :
    (world.delEfviFilter i answer = (world, true) ∧
        ∀ n, (world.sockets i).pFilterCookie = some n → (world.inodes n).filterId = 0) ∨
      world.delEfviFilter i answer = (world, false) ∨
      (world.filters ≠ [] ∧ world.delEfviFilter i answer =
        ({ world.setSocket i { world.sockets i with pFilterCookie := none } with
            filters := [], path := none }, true)) := by
  simp only [World.delEfviFilter]
  split
  · rename_i hnone
    simp [hnone]
  · rename_i n hn
    split
    · split
      · exact .inr (.inl rfl)
      · rename_i hdel
        have hmem : (world.inodes n).filterId ∈ world.filters.map (·.id) := by
          by_contra hout
          apply hdel
          unfold World.efViFilterDel
          split
          · assumption
          · simp
        rcases h.installed with ⟨hnone, _⟩ | ⟨_, filter, _, hfilters, _⟩
        · simp [hnone] at hmem
        · refine .inr (.inr ⟨by simp [hfilters], ?_⟩)
          have hid : filter.id = (world.inodes n).filterId := by
            simpa [hfilters, eq_comm] using hmem
          simp [hfilters, hid]
    · rename_i hzero
      simp only [ne_eq, not_not] at hzero
      exact .inl ⟨rfl, by simp [hn, hzero]⟩

theorem World.Valid.remove {world : World} (h : world.Valid) (hfilters : world.filters ≠ []) :
    { world with filters := [], path := none }.Valid := by
  refine ⟨by simp, h.mapped_lt, h.unmapped, ?_, h.ids_used, .inl ⟨rfl, by simp⟩⟩
  intro n hn _
  refine ⟨?_, by simp⟩
  by_cases hpath : world.path = some n
  · rcases h.installed with ⟨hnone, _⟩ | ⟨m, filter, hm, _, hcookie, hid⟩
    · exact absurd hnone hfilters
    · rw [hpath, Option.some.injEq] at hm
      rw [hm, hcookie]
      exact hid
  · exact (h.orphan n hn hpath).1

theorem delEfviFilter_valid {world : World} (h : world.Valid) (i : Nat) (answer : Int) :
    (world.delEfviFilter i answer).1.Valid := by
  rcases delEfviFilter_cases h i answer with ⟨hdel, _⟩ | hdel | ⟨hfilters, hdel⟩
  · rw [hdel]
    exact h
  · rw [hdel]
    exact h
  · rw [hdel]
    exact (h.remove hfilters).setSocket (by simp) (by simp)

theorem World.Valid.setAlive {world : World} (h : world.Valid) (alive : Nat → Bool) :
    { world with sockets := fun i => { world.sockets i with alive := alive i } }.Valid :=
  ⟨h.path_lt, h.mapped_lt, h.unmapped, h.orphan, h.ids_used, h.installed⟩

theorem step_valid (world : World) (event : Event) (h : world.Valid) :
    (step endpoints viMac world event).Valid := by
  cases event with
  | connect i answer =>
      simp only [step]
      split
      · exact connect_valid endpoints viMac h i answer
      · exact h
  | close i answer =>
      simp only [step]
      split
      · exact delEfviFilter_valid h i answer
      · exact h
  | destroy i answer =>
      simp only [step]
      split
      · have hvalid := delEfviFilter_valid h i answer
        exact hvalid.setSocket (hvalid.mapped_lt i) (hvalid.unmapped i)
      · exact h
  | restart process => exact h.setAlive _

/-- What a step leaves alone: ids stay used, a filter that appears has a fresh id,
and a socket loses a cookie with an id only when no filter is left. -/
structure World.Grows (world after : World) : Prop where
  used : ∀ id ∈ world.used, id ∈ after.used
  filters : ∀ filter ∈ after.filters, filter ∈ world.filters ∨ filter.id ∉ world.used
  mapped : ∀ i n, (world.sockets i).pFilterCookie = some n → (world.inodes n).filterId ≠ 0 →
    after.filters = [] ∨
      ((after.sockets i).pFilterCookie = some n ∧ (after.inodes n).filterId ≠ 0)

theorem World.Grows.refl (world : World) : world.Grows world :=
  ⟨fun _ h => h, fun _ h => .inl h, fun _ _ hn hne => .inr ⟨hn, hne⟩⟩

theorem addFilter_grows (world : World) (i n : Nat) (answer : Except Int Nat) :
    world.Grows (world.addFilter endpoints i n answer).1 := by
  simp only [World.addFilter]
  split
  · rename_i hzero
    split
    · exact .refl world
    · rename_i id hid
      refine ⟨fun _ h => List.mem_cons_of_mem _ h, ?_, ?_⟩
      · intro filter hfilter
        rw [List.mem_append, List.mem_singleton] at hfilter
        rcases hfilter with hold | hnew
        · exact .inl hold
        · rw [hnew]
          exact .inr (efViFilterAdd_ok hid).2
      · intro j m hm hne
        have hmn : m ≠ n := fun heq => hne (heq ▸ hzero)
        exact .inr ⟨hm, by simpa [hmn] using hne⟩
  · exact .refl world

theorem connect_grows {world : World} (h : world.Valid) (i : Nat) (answer : Except Int Nat) :
    world.Grows (world.connect endpoints viMac i answer).1 := by
  have hprepared := prepare_spec endpoints viMac h i
  have hgrows := addFilter_grows endpoints (world.prepare endpoints viMac i).1 i
    (world.prepare endpoints viMac i).2 answer
  refine ⟨fun id hid => hgrows.used id (hprepared.used ▸ hid), ?_, ?_⟩
  · intro filter hfilter
    rw [← hprepared.filters, ← hprepared.used]
    exact hgrows.filters filter hfilter
  · intro j n hn hne
    apply hgrows.mapped j n (hprepared.kept j n hn)
    rw [hprepared.inodes n (h.mapped_lt j n hn)]
    exact hne

theorem delEfviFilter_grows {world : World} (h : world.Valid) (i : Nat) (answer : Int) :
    world.Grows (world.delEfviFilter i answer).1 := by
  rcases delEfviFilter_cases h i answer with ⟨hdel, _⟩ | hdel | ⟨_, hdel⟩
  · rw [hdel]
    exact .refl world
  · rw [hdel]
    exact .refl world
  · rw [hdel]
    exact ⟨fun _ h => h, by simp, fun _ _ _ _ => .inl rfl⟩

theorem step_grows {world : World} (h : world.Valid) (event : Event) :
    world.Grows (step endpoints viMac world event) := by
  cases event with
  | connect i answer =>
      simp only [step]
      split
      · exact connect_grows endpoints viMac h i answer
      · exact .refl world
  | close i answer =>
      simp only [step]
      split
      · exact delEfviFilter_grows h i answer
      · exact .refl world
  | destroy i answer =>
      simp only [step]
      split
      · have hgrows := delEfviFilter_grows h i answer
        refine ⟨hgrows.used, hgrows.filters, ?_⟩
        intro j n hn hne
        refine (hgrows.mapped j n hn hne).imp_right fun hkept => ⟨?_, hkept.2⟩
        by_cases hji : j = i
        · rw [hji] at hkept ⊢
          simpa [World.setSocket] using hkept.1
        · simpa [World.setSocket, hji] using hkept.1
      · exact .refl world
  | restart process => exact ⟨fun _ h => h, fun _ h => .inl h, fun _ _ hn hne => .inr ⟨hn, hne⟩⟩

def World.Releases (filter : Filter) (i : Nat) (world : World) : Prop :=
  filter.id ∈ world.used ∧
    (filter ∉ world.filters ∨
      ∃ n, (world.sockets i).pFilterCookie = some n ∧ (world.inodes n).filterId ≠ 0)

theorem World.Grows.releases {world after : World} (h : world.Grows after) {filter : Filter}
    {i : Nat} (hreleases : world.Releases filter i) : after.Releases filter i := by
  rcases hreleases with ⟨hused, hgone | ⟨n, hn, hne⟩⟩
  · refine ⟨h.used _ hused, .inl fun hmem => ?_⟩
    rcases h.filters filter hmem with hold | hfresh
    · exact hgone hold
    · exact hfresh hused
  · refine ⟨h.used _ hused, ?_⟩
    rcases h.mapped i n hn hne with hnone | hkept
    · exact .inl (by simp [hnone])
    · exact .inr ⟨n, hkept⟩

theorem close_releases {world : World} (h : world.Valid) {filter : Filter} {i : Nat}
    (hreleases : world.Releases filter i) {answer : Int}
    (hclose : (world.close i answer).2 = true) :
    filter ∉ (world.close i answer).1.filters := by
  unfold World.close at hclose ⊢
  rcases delEfviFilter_cases h i answer with ⟨hdel, hzero⟩ | hdel | ⟨_, hdel⟩
  · rw [hdel]
    rcases hreleases.2 with hgone | ⟨n, hn, hne⟩
    · exact hgone
    · exact absurd (hzero n hn) hne
  · simp [hdel] at hclose
  · simp [hdel]

theorem World.Valid.id_used {world : World} (h : world.Valid) {filter : Filter}
    (hfilter : filter ∈ world.filters) : filter.id ∈ world.used := by
  rcases h.installed with ⟨hnone, _⟩ | ⟨n, own, hpath, hfilters, hcookie, hid⟩
  · simp [hnone] at hfilter
  · rw [hfilters, List.mem_singleton] at hfilter
    have hused := h.ids_used n (h.path_lt n hpath)
    rw [hcookie] at hused
    rw [hfilter]
    exact hused.resolve_left hid

theorem connect_mapped {world : World} (h : world.Valid) {i : Nat} {answer : Except Int Nat}
    (htrue : (world.connect endpoints viMac i answer).2 = .returned true) :
    ∃ n, ((world.connect endpoints viMac i answer).1.sockets i).pFilterCookie = some n ∧
      ((world.connect endpoints viMac i answer).1.inodes n).filterId ≠ 0 := by
  have hown := (prepare_spec endpoints viMac h i).own
  refine ⟨(world.prepare endpoints viMac i).2, ?_⟩
  simp only [World.connect, World.addFilter] at htrue ⊢
  split
  · split
    · rename_i hzero _ _ hadd
      simp [hzero, hadd] at htrue
    · rename_i id hid
      exact ⟨hown, by simpa using (efViFilterAdd_ok hid).1⟩
  · rename_i hne
    exact ⟨hown, hne⟩

theorem connect_releases {world : World} (h : world.Valid) {i : Nat} {answer : Except Int Nat}
    (htrue : (world.connect endpoints viMac i answer).2 = .returned true) {filter : Filter}
    (hfilter : filter ∈ (world.connect endpoints viMac i answer).1.filters) :
    (world.connect endpoints viMac i answer).1.Releases filter i :=
  ⟨(connect_valid endpoints viMac h i answer).id_used hfilter,
    .inr (connect_mapped endpoints viMac h htrue)⟩

/-- A `connect` that returns true leaves exactly the socket's own filter. -/
def connectServes (world : World) : Event → Prop
  | .connect i answer => (world.sockets i).alive →
      (world.connect endpoints viMac i answer).2 = .returned true →
        (world.connect endpoints viMac i answer).1.serves (endpoints i)
  | _ => True

/-- A filter that stands after a socket's true `connect` is gone after that
socket's true `close`. -/
def closeRemoves (start : World) (events : List Event) : Prop :=
  ∀ before between after i answer rc,
    events = before ++ .connect i answer :: (between ++ .close i rc :: after) →
    ∀ connecting closing, connecting = final (step endpoints viMac) start before →
      closing = final (step endpoints viMac) (step endpoints viMac connecting
        (.connect i answer)) between →
      (connecting.sockets i).alive → (closing.sockets i).alive →
      (connecting.connect endpoints viMac i answer).2 = .returned true →
      (closing.close i rc).2 = true →
      ∀ filter ∈ (connecting.connect endpoints viMac i answer).1.filters,
        filter ∉ (closing.close i rc).1.filters

theorem closeRemoves_always (txBuf : Nat → UInt8) (events : List Event) :
    closeRemoves endpoints viMac (World.start txBuf) events := by
  intro before between after i answer rc _ connecting closing hconnecting hclosing halive _
    htrue hclose filter hfilter
  have hvalid : connecting.Valid := by
    rw [hconnecting]
    exact final_invariant _ _ (step_valid endpoints viMac) before _ (start_valid txBuf)
  have hstart : (step endpoints viMac connecting (.connect i answer)).Valid ∧
      (step endpoints viMac connecting (.connect i answer)).Releases filter i := by
    refine ⟨step_valid endpoints viMac _ _ hvalid, ?_⟩
    simp only [step, halive, if_true]
    exact connect_releases endpoints viMac hvalid htrue hfilter
  have hend : closing.Valid ∧ closing.Releases filter i := by
    rw [hclosing]
    refine final_invariant _ (fun world : World => world.Valid ∧ world.Releases filter i) ?_
      between _ hstart
    rintro world event ⟨hworld, hreleases⟩
    exact ⟨step_valid endpoints viMac _ _ hworld,
      (step_grows endpoints viMac hworld event).releases hreleases⟩
  exact close_releases hend.1 hend.2 hclose

def connectsCurrent (world : World) : Event → Prop
  | .connect i _ => (world.sockets i).alive → world.current endpoints i
  | _ => True

theorem connectServes_iff (world : World) (event : Event) (h : world.Valid) :
    connectServes endpoints viMac world event ↔ connectsCurrent endpoints world event := by
  cases event with
  | connect i answer =>
      exact imp_congr_right fun _ => connect_serves_iff endpoints viMac h i answer
  | close i answer => exact Iff.rfl
  | destroy i answer => exact Iff.rfl
  | restart process => exact Iff.rfl

/-- Over any run, what `connect` and `close` promise holds exactly when every
`connect` is called on a socket whose cookie is current. -/
theorem filters_follow_iff (txBuf : Nat → UInt8) (events : List Event) :
    ((∀ move ∈ moves (step endpoints viMac) (World.start txBuf) events,
        connectServes endpoints viMac move.1 move.2) ∧
      closeRemoves endpoints viMac (World.start txBuf) events) ↔
      ∀ move ∈ moves (step endpoints viMac) (World.start txBuf) events,
        connectsCurrent endpoints move.1 move.2 := by
  rw [and_iff_left (closeRemoves_always endpoints viMac txBuf events)]
  exact moves_iff _ World.Valid _ _ (step_valid endpoints viMac)
    (connectServes_iff endpoints viMac) events _ (start_valid txBuf)

end Steps

def twins (i : Nat) : Endpoint :=
  { process := 0
    localAddr := ⟨10, 0, 0, 1⟩
    localPort := 9000
    remoteAddr := ⟨10, 0, 0, 2⟩
    remotePort := UInt16.ofNat (9001 + i)
    localMac := Vector.replicate 8 0
    remoteMac := Vector.replicate 8 (UInt8.ofNat i) }

/-- The second socket reuses the filter, the first one closes it, and the second
one connects again through the file that was removed. -/
theorem filters_lost_twins :
    ¬ ((∀ move ∈ moves (step twins (Vector.replicate 6 0)) (World.start fun _ => 0)
          [.connect 0 (.ok 1), .connect 1 (.ok 2), .close 0 0, .connect 1 (.ok 2)],
        connectServes twins (Vector.replicate 6 0) move.1 move.2) ∧
      closeRemoves twins (Vector.replicate 6 0) (World.start fun _ => 0)
        [.connect 0 (.ok 1), .connect 1 (.ok 2), .close 0 0, .connect 1 (.ok 2)]) := by
  rintro ⟨hserves, _⟩
  simp only [moves, List.forall_mem_cons] at hserves
  rcases hserves with ⟨_, _, _, hlast, _⟩
  obtain ⟨id, hid⟩ := hlast (by decide) (by decide)
  have hlength := congrArg List.length hid
  rw [List.length_singleton] at hlength
  exact absurd hlength (by decide)

end VirtualSfc.Efvi.Connect
