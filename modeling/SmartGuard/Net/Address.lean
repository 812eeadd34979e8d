import SmartGuard.Library.BitPrefix

/-!
# Addresses of both families

An `IpAddr` of the source is a family with that many bits, an `IpNet` keeps
the host bits it was written with, and a `Dest` is the destination of a route:
the network with its host bits cleared. Destinations are the keys of the
longest-match space of all addresses.
-/

namespace SmartGuard

open LongestMatch

inductive Family
  | V4
  | V6
  deriving DecidableEq, Repr

/-- The number of bits of an address of the family. -/
abbrev Family.width : Family → Nat
  | .V4 => 32
  | .V6 => 128

structure IpAddr where
  family : Family
  bits : BitVec family.width
  deriving DecidableEq

/-- Read an address from its octets, the most significant first. -/
def IpAddr.ofOctets (family : Family) (octets : List UInt8) : IpAddr where
  family := family
  bits := BitVec.ofNat family.width (octets.foldl (fun n b => n * 256 + b.toNat) 0)

/-- An address with a port. One of the newer family also has a flow label and a scope, and
two of them are the same only if these agree as well. -/
inductive SocketAddr
  | V4 (ip : BitVec 32) (port : UInt16)
  | V6 (ip : BitVec 128) (port : UInt16) (flowinfo scopeId : UInt32)
  deriving DecidableEq

def SocketAddr.ip : SocketAddr → IpAddr
  | .V4 ip _ => ⟨.V4, ip⟩
  | .V6 ip _ _ _ => ⟨.V6, ip⟩

/-- A network as it is written, host bits included. -/
structure IpNet where
  family : Family
  addr : BitVec family.width
  prefixLen : Nat
  prefixLen_le : prefixLen ≤ family.width
  deriving DecidableEq

/-- The destination of a route. -/
structure Dest where
  family : Family
  net : Prefix family.width
  deriving DecidableEq

/-- A network from the octets of its address. -/
def IpNet.ofOctets (family : Family) (octets : List UInt8) (len : Nat) : IpNet where
  family := family
  addr := (IpAddr.ofOctets family octets).bits
  prefixLen := min len family.width
  prefixLen_le := min_le_right _ _

namespace Dest

/-- The destination of length `n` that an address belongs to. -/
def of (a : IpAddr) (n : Nat) : Dest := ⟨a.family, Prefix.of a.bits n⟩

def len (d : Dest) : Nat := d.net.len

theorem of_inj {a b : IpAddr} {m n : Nat} (h : of a m = of b n) :
    ∃ hf : a.family = b.family, Prefix.of (hf ▸ a.bits) m = Prefix.of b.bits n := by
  obtain ⟨fa, ba⟩ := a
  obtain ⟨fb, bb⟩ := b
  simp only [of, Dest.mk.injEq] at h
  obtain ⟨rfl, hnet⟩ := h
  exact ⟨rfl, eq_of_heq hnet⟩

end Dest

instance : Space IpAddr Dest where
  width a := a.family.width
  cut := Dest.of
  len := Dest.len
  len_cut _ _ := rfl
  width_eq_of_cut h := congrArg Family.width (Dest.of_inj h).1
  cut_eq_of_le := by
    intro a b m n hle h
    obtain ⟨hf, hnet⟩ := Dest.of_inj h
    obtain ⟨fa, ba⟩ := a
    obtain ⟨fb, bb⟩ := b
    obtain rfl : fa = fb := hf
    exact congrArg (Dest.mk fa) (Prefix.of_eq_of_le hle hnet)
  eq_of_cut_width := by
    intro a b h
    obtain ⟨hf, hnet⟩ := Dest.of_inj h
    obtain ⟨fa, ba⟩ := a
    obtain ⟨fb, bb⟩ := b
    obtain rfl : fa = fb := hf
    exact congrArg (IpAddr.mk fa) (Prefix.of_width_injective hnet)

/-- The host route of an address. -/
def IpAddr.host (a : IpAddr) : Dest := full a

/-- The destination that a written network denotes: its host bits are masked. -/
def IpNet.dest (n : IpNet) : Dest := ⟨n.family, Prefix.of n.addr n.prefixLen⟩

/-- The key of the default route. -/
def Family.defaultDest (f : Family) : Dest := ⟨f, Prefix.of 0 0⟩

@[simp] theorem IpAddr.len_host (a : IpAddr) : a.host.len = a.family.width :=
  len_full (A := IpAddr) a

theorem IpAddr.covers_host_iff {a b : IpAddr} : Covers a.host b ↔ b = a :=
  covers_full_iff

@[simp] theorem IpNet.len_dest (n : IpNet) : n.dest.len = n.prefixLen :=
  min_eq_left n.prefixLen_le

/-- A destination covers only addresses of its own family. -/
theorem Dest.family_eq_of_covers {d : Dest} {a : IpAddr} (h : Covers d a) :
    d.family = a.family := by
  have hcut : Dest.of a d.len = d := h
  rw [← hcut]
  rfl

theorem Dest.covers_iff {d : Dest} {a : IpAddr} : Covers d a ↔ Dest.of a d.len = d := Iff.rfl

/-- The only destination of length zero is the default one of its family. -/
theorem Dest.eq_defaultDest {d : Dest} (h : d.len = 0) : d = d.family.defaultDest := by
  obtain ⟨f, net⟩ := d
  have hnet : net = Prefix.of 0 0 := by
    have hlen : net.len = 0 := h
    rw [← Prefix.of_bits net, hlen]
    exact Prefix.of_zero _ _
  rw [hnet]
  rfl

@[simp] theorem Family.len_defaultDest (f : Family) : f.defaultDest.len = 0 :=
  Nat.zero_min _

/-- The default destination of a family covers exactly the addresses of the family. -/
theorem Family.covers_defaultDest_iff {f : Family} {a : IpAddr} :
    Covers f.defaultDest a ↔ a.family = f := by
  constructor
  · exact fun h => (Dest.family_eq_of_covers h).symm
  · rintro rfl
    rw [Dest.covers_iff, Family.len_defaultDest]
    exact congrArg (Dest.mk a.family) (Prefix.of_zero _ _)

/-- A network of length zero is the default destination of its family. -/
theorem IpNet.dest_eq_default {n : IpNet} (h : n.prefixLen = 0) :
    n.dest = n.family.defaultDest :=
  Dest.eq_defaultDest (n.len_dest.trans h)

theorem Family.width_pos (f : Family) : 0 < f.width := by
  cases f <;> decide

section Sample

/-! The remote peer of the runs on fixed inputs. -/

/-- The address of the remote peer: `203.0.113.2`. -/
def serverIp : IpAddr := .ofOctets .V4 [203, 0, 113, 2]

def serverEndpoint : SocketAddr := .V4 serverIp.bits 51820

end Sample

end SmartGuard
