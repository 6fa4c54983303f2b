import SsrNative.Socks5Codec

/-!
# S5Packages — what the client makes of a request

`s5_address_package_create` writes the target of a request for the server, and
`s5_connect_response_package` answers the application.  Both work on the context that `s5_parse` leaves,
where a host name stands in an array and ends at the first NUL, and where the port is wrong if the request
was cut between its two bytes.  `package_names_target_iff` says for which requests both do what they are
for.
-/

namespace SsrNative
namespace S5

open Bytes

/-! ## The two packages -/

/-- `s5_address_package_create`: the bytes that are written into the buffer, or `none` if the type is not
set. -/
def s5AddressPackageCreate (parser : Ctx) : Option Bytes :=
  let daddr := parser.daddr.toList
  match parser.atyp with
  | some .ipv4 => some ([0x01] ++ daddr.take 4 ++ be16 parser.dport)
  | some .ipv6 => some ([0x04] ++ daddr.take 16 ++ be16 parser.dport)
  | some .host =>
      let len := UInt8.ofNat (cString daddr).length
      some ([0x03, len] ++ daddr.take len.toNat ++ be16 parser.dport)
  | none => none

/-- The size of the buffer. -/
def packageCapacity : ℕ := 0x100

/-- `s5_connect_response_package`; `none` when the assertion fails. -/
def s5ConnectResponsePackage (parser : Ctx) : Option Bytes :=
  match s5AddressPackageCreate parser with
  | none => none
  | some addrPkg =>
      let buf := [5, 0, 0] ++ List.replicate (addrPkg.length + 1) 0
      -- the size is that of an IPv4 address, whatever the type is
      if 7 ≤ addrPkg.length then some ((buf.set 3 1).take (7 + 3)) else none

/-- CONNECT succeeded, at the address 0.0.0.0 and port 0. -/
def successReply : Bytes := [5, 0, 0, 1, 0, 0, 0, 0, 0, 0]

/-! ## Requests -/

/-- The bytes that a call of `s5_parse` reads. -/
def consumed (cx : Ctx) (data : Bytes) : Bytes := data.take (data.length - (parse cx data).2.1.length)

/-- A context that calls of `s5_parse` and `s5_select_auth` lead to, with all the bytes that were read. -/
inductive Reached : Ctx → Bytes → Prop where
  | created : Reached ctxCreate []
  | parsed {cx : Ctx} {read : Bytes} (data : Bytes) :
      Reached cx read → Reached (parse cx data).1 (read ++ consumed cx data)
  | selected {cx : Ctx} {read : Bytes} (method : AuthMethod) : Reached cx read → Reached (selectAuth cx method) read

/-- The bytes of the address that is requested. -/
def Ctx.requested (cx : Ctx) : Bytes := cx.daddr.toList.take cx.arg1

/-- The type, the bytes and the port of an address that was read. -/
def target (a : Socks5Address) : Atyp × Bytes × ℕ :=
  match a.addrType with
  | .ipv4 => (.ipv4, a.addr, a.port)
  | .domainname => (.host, cString a.addr, a.port)
  | .ipv6 => (.ipv6, a.addr, a.port)

/-- The package fits into its buffer and names the target with this port, and the reply is a success. -/
structure NamesTarget (cx : Ctx) (port : ℕ) : Prop where
  package : ∃ pkg a, s5AddressPackageCreate cx = some pkg ∧ pkg.length ≤ packageCapacity ∧
    socks5AddressParse pkg = some a ∧ cx.atyp = some (target a).1 ∧ cx.requested = (target a).2.1 ∧
      port = (target a).2.2
  reply : s5ConnectResponsePackage cx = some successReply

/-- The byte that was read last. -/
def lastByte (read : Bytes) : UInt8 := read.getLast?.getD 0

/-- The port in the last two bytes of a request. -/
def lastPort (read : Bytes) : ℕ := portOf (lastByte read.dropLast) (lastByte read)

/-- The request was not cut between the two bytes of its port, or the first of them is zero. -/
def PortWhole (cx : Ctx) (read : Bytes) : Prop := cx.stage = .reqDport1 → lastByte read = 0

/-! ## What a request leaves in the context -/

/-- The type is set, and the length is one that the type can have. -/
def Sized (cx : Ctx) : Prop :=
  (cx.atyp = some .ipv4 ∧ cx.arg1 = 4) ∨ (cx.atyp = some .ipv6 ∧ cx.arg1 = 16) ∨
    (cx.atyp = some .host ∧ cx.arg1 < 256)

theorem Sized.lt {cx : Ctx} (h : Sized cx) : cx.arg1 < 256 := by
  rcases h with ⟨-, h⟩ | ⟨-, h⟩ | ⟨-, h⟩
  · rw [h]
    decide
  · rw [h]
    decide
  · exact h

/-- A NUL stands behind the address. -/
def Ended (cx : Ctx) : Prop := cx.daddr.toList[cx.arg1]? = some 0

/-- What is known in the stages behind the type. -/
def Filled (cx : Ctx) : Prop :=
  match cx.stage with
  | .reqAtypHost => cx.atyp = some .host
  | .reqDaddr => Sized cx
  | .reqDport0 => Sized cx ∧ Ended cx
  | .reqDport1 => Sized cx ∧ Ended cx
  | .dead => Sized cx ∧ Ended cx ∧ cx.dport < 65536
  | _ => True

theorem getElem?_setIfInBounds (v : Vector UInt8 257) {k : ℕ} (h : k < 256) :
    (v.setIfInBounds k 0).toList[k]? = some 0 := by
  rw [Vector.toList_setIfInBounds, List.getElem?_set_self]
  rw [Vector.length_toList]
  exact Nat.lt_succ_of_lt h

/-- One byte. -/
theorem filled_parseByte {cx : Ctx} (h : Filled cx) (port0 c : UInt8) : Filled (parseByte cx port0 c).1 := by
  cases hstage : cx.stage
  case reqDport0 =>
    simp only [Filled, hstage] at h
    simp only [parseByte, hstage, Filled]
    exact h
  case reqDport1 =>
    simp only [Filled, hstage] at h
    simp only [parseByte, hstage, Filled]
    exact ⟨h.1, h.2, portOf_lt port0 c⟩
  case reqDaddr =>
    simp only [Filled, hstage] at h
    simp only [parseByte, hstage, stageByte]
    -- the byte is stored if there is room, and the field ends when it is full
    split_ifs with hroom hfull hfull
    · exact ⟨h, getElem?_setIfInBounds _ h.lt⟩
    · exact h
    · exact ⟨h, getElem?_setIfInBounds _ h.lt⟩
    · simpa only [Filled, hstage] using h
  case reqAtypHost =>
    simp only [Filled, hstage] at h
    simp only [parseByte, hstage, stageByte, Filled]
    exact .inr (.inr ⟨h, c.toNat_lt⟩)
  case reqAtyp =>
    simp only [parseByte, hstage, stageByte]
    split
    · exact .inl ⟨rfl, rfl⟩
    · rfl
    · exact .inr (.inl ⟨rfl, rfl⟩)
    · simp only [Filled]
  case dead =>
    simpa only [parseByte, hstage, stageByte] using h
  all_goals
    simp only [parseByte, hstage, stageByte]
    (try split_ifs) <;> (try split) <;> simp [Filled, hstage]

theorem filled_parseLoop {cx : Ctx} (h : Filled cx) (port0 : UInt8) (data : Bytes) :
    Filled (parseLoop cx port0 data).1 := by
  induction data generalizing cx port0 with
  | nil => exact h
  | cons c cs ih =>
      have hbyte := filled_parseByte h port0 c
      rcases hparse : parseByte cx port0 c with ⟨cx', port0', _ | r⟩
      · rw [hparse] at hbyte
        rw [parseLoop_none hparse]
        exact ih hbyte port0'
      · rw [hparse] at hbyte
        rw [parseLoop_some hparse]
        exact hbyte

/-- It is known in every context. -/
theorem Reached.filled {cx : Ctx} {read : Bytes} (h : Reached cx read) : Filled cx := by
  induction h with
  | created => exact trivial
  | parsed data _ ih => exact filled_parseLoop ih 0 data
  | selected method _ ih =>
      cases method with
      | none => exact trivial
      | gssapi => exact ih
      | passwd => exact trivial

/-- A request is reported with the second byte of its port. -/
theorem parseByte_execCmd {cx : Ctx} {port0 c : UInt8} (h : (parseByte cx port0 c).2.2 = some .execCmd) :
    (parseByte cx port0 c).1.stage = .dead := by
  cases hstage : cx.stage
  case reqDport1 => simp only [parseByte, hstage]
  all_goals
    simp only [parseByte, hstage, stageByte] at h
    (try split_ifs at h) <;> (try split at h) <;> simp at h

theorem parseLoop_execCmd {cx : Ctx} {port0 : UInt8} {data : Bytes}
    (h : (parseLoop cx port0 data).2.2 = .execCmd) : (parseLoop cx port0 data).1.stage = .dead := by
  induction data generalizing cx port0 with
  | nil => cases h
  | cons c cs ih =>
      rcases hparse : parseByte cx port0 c with ⟨cx', port0', _ | r⟩
      · rw [parseLoop_none hparse] at h ⊢
        exact ih h
      · rw [parseLoop_some hparse] at h ⊢
        have hexec : (parseByte cx port0 c).2.2 = some .execCmd := by rw [hparse, ← h]
        have hdead := parseByte_execCmd hexec
        rwa [hparse] at hdead

/-- What stands in the context of an accepted request. -/
theorem Reached.accepted {cx : Ctx} {read : Bytes} (h : Reached cx read) {data : Bytes}
    (hexec : (parse cx data).2.2 = .execCmd) :
    Sized (parse cx data).1 ∧ Ended (parse cx data).1 ∧ (parse cx data).1.dport < 65536 := by
  have hfilled := (Reached.parsed data h).filled
  have hdead : (parse cx data).1.stage = .dead := parseLoop_execCmd hexec
  rwa [Filled, hdead] at hfilled

/-! ## The port of a request -/

/-- The stage of the second port byte follows on the first one, which is then in `port[0]`. -/
theorem parseByte_port {cx cx' : Ctx} {port0 port0' c : UInt8} (h : parseByte cx port0 c = (cx', port0', none))
    (hstage : cx'.stage = .reqDport1) : port0' = c := by
  by_cases h0 : cx.stage = .reqDport0
  · simp only [parseByte, h0, Prod.mk.injEq] at h
    exact h.2.1.symm
  · by_cases h1 : cx.stage = .reqDport1
    · simp [parseByte, h1] at h
    · rw [parseByte_of_ne h0 h1] at h
      have hnext := (stageByte_spec cx c).2 h1
      rw [(Prod.mk.inj h).1] at hnext
      exact absurd hstage hnext

/-- The result of a request comes with the second byte of the port. -/
theorem parseByte_exec {cx cx' : Ctx} {port0 port0' c : UInt8}
    (h : parseByte cx port0 c = (cx', port0', some .execCmd)) :
    cx.stage = .reqDport1 ∧ cx'.dport = portOf port0 c := by
  cases hstage : cx.stage
  case reqDport1 =>
    simp only [parseByte, hstage, Prod.mk.injEq] at h
    rw [← h.1]
    exact ⟨rfl, rfl⟩
  all_goals
    simp only [parseByte, hstage, stageByte] at h
    (try split_ifs at h) <;> (try split at h) <;> simp at h

/-- The port is that of the last two bytes of the call.  If the call has only the second one, the first one
is what `port[0]` was at its beginning. -/
theorem parseLoop_port {cx : Ctx} {port0 : UInt8} {data : Bytes} (h : (parseLoop cx port0 data).2.2 = .execCmd) :
    ∃ pre c, data = pre ++ c :: (parseLoop cx port0 data).2.1 ∧
      (parseLoop cx port0 data).1.dport = portOf (pre.getLast?.getD port0) c ∧
        (pre = [] ↔ cx.stage = .reqDport1) := by
  induction data generalizing cx port0 with
  | nil => cases h
  | cons c cs ih =>
      rcases hparse : parseByte cx port0 c with ⟨cx', port0', _ | r⟩
      · rw [parseLoop_none hparse] at h ⊢
        rcases ih h with ⟨pre, c', hdata, hport, hpre⟩
        have hbefore : cx.stage ≠ .reqDport1 := by
          intro hstage
          simp [parseByte, hstage] at hparse
        refine ⟨c :: pre, c', congrArg (c :: ·) hdata, ?_, iff_of_false (List.cons_ne_nil _ _) hbefore⟩
        rw [hport]
        rcases List.eq_nil_or_concat pre with rfl | ⟨pre, b, rfl⟩
        · -- this byte was the first one of the port
          rw [parseByte_port hparse (hpre.1 rfl)]
          rfl
        · rw [List.concat_eq_append, ← List.cons_append, List.getLast?_concat, List.getLast?_concat]
          rfl
      · rw [parseLoop_some hparse] at h ⊢
        have hr : r = .execCmd := h
        subst hr
        rcases parseByte_exec hparse with ⟨hstage, hport⟩
        exact ⟨[], c, rfl, hport, iff_of_true rfl hstage⟩

/-- The port in the context is that of the last two bytes exactly when they were read in one call, or the
first of them is zero. -/
theorem lastPort_iff {cx : Ctx} {data : Bytes} (hexec : (parse cx data).2.2 = .execCmd) (read : Bytes) :
    lastPort (read ++ consumed cx data) = (parse cx data).1.dport ↔ PortWhole cx read := by
  rcases parseLoop_port hexec with ⟨pre, c, hdata, hport, hpre⟩
  have hcons : consumed cx data = pre ++ [c] := by
    have hlen : data.length - (parse cx data).2.1.length = (pre ++ [c]).length := by
      have hlen := congrArg List.length hdata
      rw [List.length_append, List.length_cons] at hlen
      rw [List.length_append, List.length_singleton, parse]
      omega
    calc consumed cx data
        = data.take (pre ++ [c]).length := congrArg (data.take ·) hlen
      _ = (pre ++ [c] ++ (parseLoop cx 0 data).2.1).take (pre ++ [c]).length :=
          congrArg (List.take _) (hdata.trans (List.append_cons _ _ _))
      _ = pre ++ [c] := List.take_left
  have hlast : lastPort (read ++ consumed cx data) = portOf ((read ++ pre).getLast?.getD 0) c := by
    rw [hcons, ← List.append_assoc, lastPort, lastByte, lastByte, List.dropLast_concat, List.getLast?_concat]
    rfl
  rw [hlast, parse, hport, PortWhole, ← hpre]
  rcases List.eq_nil_or_concat pre with rfl | ⟨pre, b, rfl⟩
  · rw [List.append_nil]
    constructor
    · intro h _
      have hnat : (lastByte read).toNat * 256 + c.toNat = 0 * 256 + c.toNat := h
      exact UInt8.toNat_inj.1 (Nat.eq_of_mul_eq_mul_right (by decide) (Nat.add_right_cancel hnat))
    · intro h
      exact congrArg (portOf · c) (h rfl)
  · rw [List.concat_eq_append, ← List.append_assoc, List.getLast?_concat, List.getLast?_concat]
    exact iff_of_true rfl fun hnil => absurd hnil (by simp)

/-! ## The packages of a request -/

/-- The target is an address, or a name of 3 to 252 bytes without a NUL. -/
def Nameable (cx : Ctx) : Prop :=
  cx.atyp = some .host → 3 ≤ cx.arg1 ∧ cx.arg1 ≤ 252 ∧ (0 : UInt8) ∉ cx.requested

section Request

variable {cx : Ctx}

theorem length_requested (h : Sized cx) : cx.requested.length = cx.arg1 := by
  have hlt := h.lt
  rw [Ctx.requested, List.length_take, Vector.length_toList]
  exact Nat.min_eq_left (by omega)

/-- `strlen` looks at the requested bytes only. -/
theorem cString_daddr (h : Ended cx) : cString cx.daddr.toList = cString cx.requested := by
  rcases List.getElem?_eq_some_iff.1 h with ⟨hlt, hzero⟩
  have hcut : cx.daddr.toList = cx.requested ++ 0 :: cx.daddr.toList.drop (cx.arg1 + 1) := by
    calc cx.daddr.toList
        = cx.requested ++ cx.daddr.toList.drop cx.arg1 := (List.take_append_drop _ _).symm
      _ = cx.requested ++ 0 :: cx.daddr.toList.drop (cx.arg1 + 1) := by
          rw [List.drop_eq_getElem_cons hlt, hzero]
  rw [hcut, cString_append_zero]

/-- The two bytes of a port. -/
theorem exists_be16 {port : ℕ} (h : port < 65536) : ∃ p₀ p₁, be16 port = [p₀, p₁] ∧ portOf p₀ p₁ = port := by
  refine ⟨_, _, rfl, ?_⟩
  rw [portOf, UInt8.toNat_ofNat', UInt8.toNat_ofNat']
  omega

/-- The reply has ten bytes if the package has seven. -/
theorem connectResponse_iff {pkg : Bytes} (h : s5AddressPackageCreate cx = some pkg) :
    s5ConnectResponsePackage cx = some successReply ↔ 7 ≤ pkg.length := by
  unfold s5ConnectResponsePackage
  rw [h]
  dsimp only
  split_ifs with hlen
  · refine iff_of_true (congrArg some ?_) hlen
    rcases Nat.exists_eq_add_of_le' hlen with ⟨n, hn⟩
    rw [hn]
    rfl
  · exact iff_of_false nofun hlen

/-- The package of a numeric address. -/
theorem namesTarget_of_header {pkg : Bytes} {a : Socks5Address} (hpkg : s5AddressPackageCreate cx = some pkg)
    (hhdr : Header pkg a) (hseven : 7 ≤ pkg.length) (hfits : pkg.length ≤ packageCapacity)
    (hatyp : cx.atyp = some (target a).1) (haddr : cx.requested = (target a).2.1)
    (hport : cx.dport = (target a).2.2) : NamesTarget cx cx.dport := by
  have hparse := hhdr.parse []
  rw [List.append_nil] at hparse
  exact ⟨⟨pkg, a, hpkg, hfits, hparse, hatyp, haddr, hport⟩, (connectResponse_iff hpkg).2 hseven⟩

/-- The package of a name announces as many bytes as stand in front of the NUL. -/
theorem package_host (hsized : Sized cx) (hended : Ended cx) (hatyp : cx.atyp = some .host) :
    ∃ len : UInt8, (cString cx.requested).length = len.toNat ∧
      s5AddressPackageCreate cx = some (0x03 :: len :: (cString cx.requested ++ be16 cx.dport)) := by
  have hinit := cString_initial cx.requested
  have hlen : (cString cx.requested).length < 256 :=
    calc (cString cx.requested).length
        ≤ cx.requested.length := hinit.length_le
      _ = cx.arg1 := length_requested hsized
      _ < 256 := hsized.lt
  have hnat : (UInt8.ofNat (cString cx.requested).length).toNat = (cString cx.requested).length := by
    rw [UInt8.toNat_ofNat', Nat.mod_eq_of_lt hlen]
  have htake : cx.daddr.toList.take (cString cx.requested).length = cString cx.requested :=
    (List.prefix_iff_eq_take.1 (hinit.trans (List.take_prefix _ _))).symm
  refine ⟨UInt8.ofNat (cString cx.requested).length, hnat.symm, ?_⟩
  unfold s5AddressPackageCreate
  rw [hatyp]
  dsimp only
  rw [cString_daddr hended, hnat, htake]
  rfl

theorem namesTarget_host_iff (hsized : Sized cx) (hended : Ended cx) (hport : cx.dport < 65536)
    (hatyp : cx.atyp = some .host) :
    NamesTarget cx cx.dport ↔ 3 ≤ cx.arg1 ∧ cx.arg1 ≤ 252 ∧ (0 : UInt8) ∉ cx.requested := by
  rcases package_host hsized hended hatyp with ⟨len, hlen, hpkg⟩
  rcases exists_be16 hport with ⟨p₀, p₁, hbe, hof⟩
  rw [hbe] at hpkg
  have hhdr := Header.domainname len p₀ p₁ hlen
  have hparse := hhdr.parse []
  rw [List.append_nil] at hparse
  have hsize : (0x03 :: len :: (cString cx.requested ++ [p₀, p₁])).length = (cString cx.requested).length + 4 := by
    simp
  have hstr : cString (domainArray (cString cx.requested)) = cString cx.requested := by
    rw [cString_domainArray (hlen ▸ len.toNat_lt), cString_of_not_mem (not_mem_cString _)]
  constructor
  · rintro ⟨⟨pkg, a, hpkg', hfits, hparse', -, haddr, -⟩, hreply⟩
    rw [hpkg, Option.some.injEq] at hpkg'
    subst hpkg'
    rw [hparse, Option.some.injEq] at hparse'
    subst hparse'
    have hname : cx.requested = cString cx.requested := haddr.trans hstr
    have hcount : (cString cx.requested).length = cx.arg1 := by rw [← hname, length_requested hsized]
    have hseven := (connectResponse_iff hpkg).1 hreply
    rw [hsize, hcount] at hseven hfits
    refine ⟨by omega, Nat.le_of_add_le_add_right hfits, ?_⟩
    rw [hname]
    exact not_mem_cString _
  · rintro ⟨hthree, hmost, hnul⟩
    have hname : cString cx.requested = cx.requested := cString_of_not_mem hnul
    have hcount : (cString cx.requested).length = cx.arg1 := by rw [hname, length_requested hsized]
    refine namesTarget_of_header hpkg hhdr ?_ ?_ hatyp ?_ hof.symm
    · rw [hsize, hcount]
      omega
    · rw [hsize, hcount]
      exact Nat.add_le_add_right hmost 4
    · exact (hstr.trans hname).symm

/-- The package is a header with the port of the context. -/
theorem exists_header (hsized : Sized cx) (hended : Ended cx) (hport : cx.dport < 65536) :
    ∃ pkg a, s5AddressPackageCreate cx = some pkg ∧ Header pkg a ∧ (target a).2.2 = cx.dport := by
  rcases exists_be16 hport with ⟨p₀, p₁, hbe, hof⟩
  have hlen := length_requested hsized
  rcases hsized with ⟨hatyp, harg⟩ | ⟨hatyp, harg⟩ | ⟨hatyp, harg⟩
  · refine ⟨_, _, ?_, .ipv4 p₀ p₁ (hlen.trans harg), hof⟩
    simp [s5AddressPackageCreate, hatyp, hbe, Ctx.requested, harg]
  · refine ⟨_, _, ?_, .ipv6 p₀ p₁ (hlen.trans harg), hof⟩
    simp [s5AddressPackageCreate, hatyp, hbe, Ctx.requested, harg]
  · rcases package_host (.inr (.inr ⟨hatyp, harg⟩)) hended hatyp with ⟨len, hname, hpkg⟩
    rw [hbe] at hpkg
    exact ⟨_, _, hpkg, .domainname len p₀ p₁ hname, hof⟩

/-- No other port is named than that of the context. -/
theorem namesTarget_port_iff (hsized : Sized cx) (hended : Ended cx) (hport : cx.dport < 65536) (port : ℕ) :
    NamesTarget cx port ↔ NamesTarget cx cx.dport ∧ port = cx.dport := by
  constructor
  · intro h
    rcases h.package with ⟨pkg, a, hpkg, -, hparse, -, -, hnamed⟩
    rcases exists_header hsized hended hport with ⟨pkg', a', hpkg', hhdr, hown⟩
    rw [hpkg', Option.some.injEq] at hpkg
    subst hpkg
    have hparse' := hhdr.parse []
    rw [List.append_nil, hparse, Option.some.injEq] at hparse'
    subst hparse'
    have hsame : port = cx.dport := hnamed.trans hown
    exact ⟨hsame ▸ h, hsame⟩
  · rintro ⟨h, rfl⟩
    exact h

/-- The package names what stands in the context exactly when that is an address or a name of 3 to 252 bytes
without a NUL. -/
theorem namesTarget_dport_iff (hsized : Sized cx) (hended : Ended cx) (hport : cx.dport < 65536) :
    NamesTarget cx cx.dport ↔ Nameable cx := by
  rcases exists_be16 hport with ⟨p₀, p₁, hbe, hof⟩
  have hlen := length_requested hsized
  rcases hsized with ⟨hatyp, harg⟩ | ⟨hatyp, harg⟩ | ⟨hatyp, harg⟩
  · rw [harg] at hlen
    have hpkg : s5AddressPackageCreate cx = some (0x01 :: (cx.requested ++ [p₀, p₁])) := by
      simp [s5AddressPackageCreate, hatyp, hbe, Ctx.requested, harg]
    refine iff_of_true ?_ fun hhost => absurd (hatyp.symm.trans hhost) (by decide)
    exact namesTarget_of_header hpkg (.ipv4 p₀ p₁ hlen) (by simp [hlen]) (by simp [hlen, packageCapacity]) hatyp
      rfl hof.symm
  · rw [harg] at hlen
    have hpkg : s5AddressPackageCreate cx = some (0x04 :: (cx.requested ++ [p₀, p₁])) := by
      simp [s5AddressPackageCreate, hatyp, hbe, Ctx.requested, harg]
    refine iff_of_true ?_ fun hhost => absurd (hatyp.symm.trans hhost) (by decide)
    exact namesTarget_of_header hpkg (.ipv6 p₀ p₁ hlen) (by simp [hlen]) (by simp [hlen, packageCapacity]) hatyp
      rfl hof.symm
  · rw [namesTarget_host_iff (.inr (.inr ⟨hatyp, harg⟩)) hended hport hatyp, Nameable]
    exact ⟨fun h _ => h, fun h => h hatyp⟩

/-- The package of a request names its target and the port of its last two bytes, and the reply is a success,
exactly when the target is an address or a name of 3 to 252 bytes without a NUL, and the request was not cut
between the two port bytes, unless the first of them is zero. -/
theorem package_names_target_iff {read : Bytes} (hreach : Reached cx read) {data : Bytes}
    (hexec : (parse cx data).2.2 = .execCmd) :
    NamesTarget (parse cx data).1 (lastPort (read ++ consumed cx data)) ↔
      Nameable (parse cx data).1 ∧ PortWhole cx read := by
  rcases hreach.accepted hexec with ⟨hsized, hended, hport⟩
  rw [namesTarget_port_iff hsized hended hport, namesTarget_dport_iff hsized hended hport, lastPort_iff hexec]

end Request

/-! ## Sample requests -/

/-- A connection that needs no authentication, up to its request. -/
def readyCtx : Ctx := (parse (selectAuth (parse ctxCreate [5, 1, 0]).1 .none) []).1

theorem reached_readyCtx : Reached readyCtx [5, 1, 0] := .parsed [] (.selected .none (.parsed [5, 1, 0] .created))

/-- CONNECT to a name, port 80. -/
def nameRequest (name : Bytes) : Bytes := [5, 1, 0, 3, UInt8.ofNat name.length] ++ name ++ [0, 80]

theorem package_of_short_name :
    NamesTarget (parse readyCtx (nameRequest (ascii "a.b"))).1
        (lastPort ([5, 1, 0] ++ consumed readyCtx (nameRequest (ascii "a.b")))) ↔
      Nameable (parse readyCtx (nameRequest (ascii "a.b"))).1 ∧ PortWhole readyCtx [5, 1, 0] :=
  package_names_target_iff reached_readyCtx (by decide +kernel)

theorem not_names_of_mem {name : Bytes} (hmem : name ∈ [ascii "ab", [0x61, 0, 0x62], List.replicate 253 0x61])
    (port : ℕ) :
    (parse readyCtx (nameRequest name)).2.2 = .execCmd ∧
      ¬ NamesTarget (parse readyCtx (nameRequest name)).1 port := by
  have hexec : ∀ name ∈ [ascii "ab", [0x61, 0, 0x62], List.replicate 253 0x61],
      (parse readyCtx (nameRequest name)).2.2 = .execCmd ∧
        (parse readyCtx (nameRequest name)).1.atyp = some .host ∧
          ¬ (3 ≤ (parse readyCtx (nameRequest name)).1.arg1 ∧
            (parse readyCtx (nameRequest name)).1.arg1 ≤ 252 ∧
              (0 : UInt8) ∉ (parse readyCtx (nameRequest name)).1.requested) := by
    decide +kernel
  rcases hexec name hmem with ⟨hexec, hatyp, hbad⟩
  rcases reached_readyCtx.accepted hexec with ⟨hsized, hended, hport⟩
  refine ⟨hexec, fun hnames => hbad ?_⟩
  have hown := ((namesTarget_port_iff hsized hended hport port).1 hnames).1
  exact (namesTarget_host_iff hsized hended hport hatyp).1 hown

/-- A request for 1.2.3.4 with the first byte of port 443. -/
def cutRequest : Bytes := [5, 1, 0, 1, 1, 2, 3, 4, 1]

theorem reached_cut : Reached (parse readyCtx cutRequest).1 ([5, 1, 0] ++ cutRequest) :=
  .parsed cutRequest reached_readyCtx

/-- The call that reads the second byte names port 187. -/
theorem not_names_cut :
    (parse (parse readyCtx cutRequest).1 [187]).2.2 = .execCmd ∧
      ¬ NamesTarget (parse (parse readyCtx cutRequest).1 [187]).1 443 := by
  have hexec : (parse (parse readyCtx cutRequest).1 [187]).2.2 = .execCmd := by decide +kernel
  rcases reached_cut.accepted hexec with ⟨hsized, hended, hport⟩
  refine ⟨hexec, fun hnames => ?_⟩
  have hsame := ((namesTarget_port_iff hsized hended hport 443).1 hnames).2
  exact absurd hsame (by decide +kernel)

/-- A name of two bytes stops the client, one with a NUL is cut off, one of 253 bytes does not fit, and a
request that is cut between the bytes of its port names another port. -/
theorem package_names_other_target :
    ((parse readyCtx (nameRequest (ascii "ab"))).2.2 = .execCmd ∧
        ¬ NamesTarget (parse readyCtx (nameRequest (ascii "ab"))).1 80) ∧
      ((parse readyCtx (nameRequest [0x61, 0, 0x62])).2.2 = .execCmd ∧
        ¬ NamesTarget (parse readyCtx (nameRequest [0x61, 0, 0x62])).1 80) ∧
      ((parse readyCtx (nameRequest (List.replicate 253 0x61))).2.2 = .execCmd ∧
        ¬ NamesTarget (parse readyCtx (nameRequest (List.replicate 253 0x61))).1 80) ∧
      (parse (parse readyCtx cutRequest).1 [187]).2.2 = .execCmd ∧
        ¬ NamesTarget (parse (parse readyCtx cutRequest).1 [187]).1 443 :=
  ⟨not_names_of_mem List.mem_cons_self 80, not_names_of_mem (List.mem_cons_of_mem _ List.mem_cons_self) 80,
    not_names_of_mem (List.mem_cons_of_mem _ (List.mem_cons_of_mem _ List.mem_cons_self)) 80, not_names_cut⟩

end S5
end SsrNative
