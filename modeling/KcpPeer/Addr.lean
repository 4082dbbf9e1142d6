import Mathlib.Data.BitVec

set_option autoImplicit false

namespace KcpPeer

/-- `std::net::SocketAddrV4`. The four octets are kept as one big-endian word:
std compares octets left to right, which is the order of the words. -/
structure SocketAddrV4 where
  ip : BitVec 32
  port : UInt16
  deriving DecidableEq, Repr

/-- `std::net::SocketAddrV6`, the eight segments as one big-endian word. -/
structure SocketAddrV6 where
  ip : BitVec 128
  port : UInt16
  flowinfo : UInt32
  scopeId : UInt32
  deriving DecidableEq, Repr

inductive SocketAddr where
  | v4 (addr : SocketAddrV4)
  | v6 (addr : SocketAddrV6)
  deriving DecidableEq, Repr

/-- std derives the order of addresses: every V4 address is below every V6
address, and fields are compared in declaration order. -/
def SocketAddrV4.lt (left right : SocketAddrV4) : Prop :=
  left.ip < right.ip ∨ left.ip = right.ip ∧ left.port < right.port

def SocketAddrV6.lt (left right : SocketAddrV6) : Prop :=
  left.ip < right.ip ∨ left.ip = right.ip ∧
    (left.port < right.port ∨ left.port = right.port ∧
      (left.flowinfo < right.flowinfo ∨ left.flowinfo = right.flowinfo ∧
        left.scopeId < right.scopeId))

def SocketAddr.lt : SocketAddr → SocketAddr → Prop
  | .v4 left, .v4 right => left.lt right
  | .v4 _, .v6 _ => True
  | .v6 _, .v4 _ => False
  | .v6 left, .v6 right => left.lt right

instance : LT SocketAddr := ⟨SocketAddr.lt⟩

instance (left right : SocketAddrV4) : Decidable (left.lt right) :=
  inferInstanceAs (Decidable (_ ∨ _ ∧ _))

instance (left right : SocketAddrV6) : Decidable (left.lt right) :=
  inferInstanceAs (Decidable (_ ∨ _ ∧ (_ ∨ _ ∧ (_ ∨ _ ∧ _))))

instance : ∀ left right : SocketAddr, Decidable (left < right)
  | .v4 left, .v4 right => inferInstanceAs (Decidable (left.lt right))
  | .v4 _, .v6 _ => isTrue trivial
  | .v6 _, .v4 _ => isFalse (fun impossible => impossible)
  | .v6 left, .v6 right => inferInstanceAs (Decidable (left.lt right))

theorem SocketAddrV4.lt_asymm {left right : SocketAddrV4} (below : left.lt right) :
    ¬ right.lt left := by
  simp only [SocketAddrV4.lt, BitVec.lt_def, UInt16.lt_iff_toNat_lt] at *
  rcases below with ip | ⟨ip, port⟩
  · rintro (ip' | ⟨ip', _⟩)
    · omega
    · simp only [ip', Nat.lt_irrefl] at ip
  · rintro (ip' | ⟨_, port'⟩)
    · simp only [ip, Nat.lt_irrefl] at ip'
    · omega

theorem SocketAddrV6.lt_asymm {left right : SocketAddrV6} (below : left.lt right) :
    ¬ right.lt left := by
  simp only [SocketAddrV6.lt, BitVec.lt_def, UInt16.lt_iff_toNat_lt, UInt32.lt_iff_toNat_lt] at *
  grind

theorem SocketAddrV4.lt_or_gt {left right : SocketAddrV4} (distinct : left ≠ right) :
    left.lt right ∨ right.lt left := by
  obtain ⟨ip, port⟩ := left
  obtain ⟨ip', port'⟩ := right
  simp only [ne_eq, SocketAddrV4.mk.injEq, SocketAddrV4.lt, BitVec.lt_def,
    UInt16.lt_iff_toNat_lt, ← BitVec.toNat_inj, ← UInt16.toNat_inj] at *
  omega

theorem SocketAddrV6.lt_or_gt {left right : SocketAddrV6} (distinct : left ≠ right) :
    left.lt right ∨ right.lt left := by
  obtain ⟨ip, port, flowinfo, scopeId⟩ := left
  obtain ⟨ip', port', flowinfo', scopeId'⟩ := right
  simp only [ne_eq, SocketAddrV6.mk.injEq, SocketAddrV6.lt, BitVec.lt_def,
    UInt16.lt_iff_toNat_lt, UInt32.lt_iff_toNat_lt, ← BitVec.toNat_inj, ← UInt16.toNat_inj,
    ← UInt32.toNat_inj] at *
  omega

theorem SocketAddr.lt_asymm {left right : SocketAddr} (below : left < right) :
    ¬ right < left := by
  cases left <;> cases right
  · exact SocketAddrV4.lt_asymm below
  · exact fun impossible => impossible
  · exact fun _ => below
  · exact SocketAddrV6.lt_asymm below

/-- Two different addresses are ordered, so two peers that compare the same pair
of addresses never both find their own the higher. -/
theorem SocketAddr.lt_or_gt {left right : SocketAddr} (distinct : left ≠ right) :
    left < right ∨ right < left := by
  cases left with
  | v4 left =>
      cases right with
      | v4 right => exact SocketAddrV4.lt_or_gt fun same => distinct (congrArg SocketAddr.v4 same)
      | v6 right => exact Or.inl trivial
  | v6 left =>
      cases right with
      | v4 right => exact Or.inr trivial
      | v6 right => exact SocketAddrV6.lt_or_gt fun same => distinct (congrArg SocketAddr.v6 same)

/-- `Ipv6Addr::to_ipv4_mapped`: the last 32 bits of `::ffff:a.b.c.d`. -/
def toIpv4Mapped (ip : BitVec 128) : Option (BitVec 32) :=
  if ip >>> 32 = 0xffff#128 then some (ip.setWidth 32) else none

/-- `CanonicalAddr`, the key of the session map. -/
structure CanonicalAddr where
  addr : SocketAddr
  deriving DecidableEq, Repr

/-- IPv4-mapped IPv6 addresses become plain IPv4. -/
def canonicalize : SocketAddr → CanonicalAddr
  | .v6 v6 =>
      match toIpv4Mapped v6.ip with
      | some v4 => ⟨.v4 ⟨v4, v6.port⟩⟩
      | none => ⟨.v6 v6⟩
  | other => ⟨other⟩

theorem canonicalize_idem (addr : SocketAddr) :
    canonicalize (canonicalize addr).addr = canonicalize addr := by
  cases addr with
  | v4 addr => rfl
  | v6 addr =>
      cases mapped : toIpv4Mapped addr.ip <;> simp only [canonicalize, mapped]

/-- `[::ffff:127.0.0.1]:8080` and `127.0.0.1:8080` are one key. -/
example : canonicalize (.v6 ⟨0xffff7f000001#128, 8080, 0, 0⟩) =
    canonicalize (.v4 ⟨0x7f000001#32, 8080⟩) := by decide

end KcpPeer
