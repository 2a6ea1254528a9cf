import Mathlib

/-!
# Addresses that a fetch may reach

The ranges by which addresses are told apart, as the address library of
Python 3.12.10 has them, and what is left of the addresses once the private,
loopback, link-local, multicast, unspecified and reserved ones are refused.
-/

namespace ShejaneRuntime.WebFetch

inductive IPAddress where
  | v4 (ip : Fin (2 ^ 32))
  | v6 (ip : Fin (2 ^ 128)) (scopeId : Option String)
  deriving DecidableEq, Repr

/-- An address by its four bytes. -/
def quad (a b c d : ℕ) : ℕ := ((a * 256 + b) * 256 + c) * 256 + d

/-- An address by its first groups of four digits; the others are zero. -/
def groups (l : List ℕ) : ℕ := l.foldl (· * 65536 + ·) 0 * 65536 ^ (8 - l.length)

/-- A network by the number of bits of its addresses, an address of it and its length. -/
def inNetwork (width : ℕ) (network : ℕ × ℕ) (ip : ℕ) : Bool :=
  ip / 2 ^ (width - network.2) == network.1 / 2 ^ (width - network.2)

/-! ## Version 4 -/

namespace V4

def linklocalNetwork : ℕ × ℕ := (quad 169 254 0 0, 16)

def loopbackNetwork : ℕ × ℕ := (quad 127 0 0 0, 8)

def multicastNetwork : ℕ × ℕ := (quad 224 0 0 0, 4)

def privateNetworks : List (ℕ × ℕ) :=
  [(quad 0 0 0 0, 8), (quad 10 0 0 0, 8), (quad 127 0 0 0, 8), (quad 169 254 0 0, 16),
    (quad 172 16 0 0, 12), (quad 192 0 0 0, 24), (quad 192 0 0 170, 31), (quad 192 0 2 0, 24),
    (quad 192 168 0 0, 16), (quad 198 18 0 0, 15), (quad 198 51 100 0, 24),
    (quad 203 0 113 0, 24), (quad 240 0 0 0, 4), (quad 255 255 255 255, 32)]

def privateNetworksExceptions : List (ℕ × ℕ) := [(quad 192 0 0 9, 32), (quad 192 0 0 10, 32)]

def reservedNetwork : ℕ × ℕ := (quad 240 0 0 0, 4)

def isPrivate (ip : ℕ) : Bool :=
  privateNetworks.any (inNetwork 32 · ip) && privateNetworksExceptions.all (!inNetwork 32 · ip)

def isLoopback (ip : ℕ) : Bool := inNetwork 32 loopbackNetwork ip

def isLinkLocal (ip : ℕ) : Bool := inNetwork 32 linklocalNetwork ip

def isMulticast (ip : ℕ) : Bool := inNetwork 32 multicastNetwork ip

def isUnspecified (ip : ℕ) : Bool := ip == quad 0 0 0 0

def isReserved (ip : ℕ) : Bool := inNetwork 32 reservedNetwork ip

end V4

/-! ## Version 6 -/

namespace V6

def linklocalNetwork : ℕ × ℕ := (groups [0xfe80], 10)

def multicastNetwork : ℕ × ℕ := (groups [0xff00], 8)

def privateNetworks : List (ℕ × ℕ) :=
  [(groups [0, 0, 0, 0, 0, 0, 0, 1], 128), (groups [], 128),
    (groups [0, 0, 0, 0, 0, 0xffff], 96), (groups [0x64, 0xff9b, 1], 48), (groups [0x100], 64),
    (groups [0x2001], 23), (groups [0x2001, 0xdb8], 32), (groups [0x2002], 16),
    (groups [0x3fff], 20), (groups [0xfc00], 7), (groups [0xfe80], 10)]

def privateNetworksExceptions : List (ℕ × ℕ) :=
  [(groups [0x2001, 1, 0, 0, 0, 0, 0, 1], 128), (groups [0x2001, 1, 0, 0, 0, 0, 0, 2], 128),
    (groups [0x2001, 3], 32), (groups [0x2001, 4, 0x112], 48), (groups [0x2001, 0x20], 28),
    (groups [0x2001, 0x30], 28)]

def reservedNetworks : List (ℕ × ℕ) :=
  [(groups [], 8), (groups [0x100], 8), (groups [0x200], 7), (groups [0x400], 6),
    (groups [0x800], 5), (groups [0x1000], 4), (groups [0x4000], 3), (groups [0x6000], 3),
    (groups [0x8000], 3), (groups [0xa000], 3), (groups [0xc000], 3), (groups [0xe000], 4),
    (groups [0xf000], 5), (groups [0xf800], 6), (groups [0xfe00], 9)]

/-- The address of version 4 that a mapped address stands for. -/
def ipv4Mapped (ip : ℕ) : Option ℕ := if ip / 2 ^ 32 = 0xffff then some (ip % 2 ^ 32) else none

def isPrivate (ip : ℕ) : Bool :=
  match ipv4Mapped ip with
  | some mapped => V4.isPrivate mapped
  | none =>
      privateNetworks.any (inNetwork 128 · ip) &&
        privateNetworksExceptions.all (!inNetwork 128 · ip)

def isLoopback (ip : ℕ) : Bool :=
  match ipv4Mapped ip with
  | some mapped => V4.isLoopback mapped
  | none => ip == 1

def isLinkLocal (ip : ℕ) : Bool :=
  match ipv4Mapped ip with
  | some mapped => V4.isLinkLocal mapped
  | none => inNetwork 128 linklocalNetwork ip

def isMulticast (ip : ℕ) : Bool :=
  match ipv4Mapped ip with
  | some mapped => V4.isMulticast mapped
  | none => inNetwork 128 multicastNetwork ip

def isUnspecified (ip : ℕ) : Bool :=
  match ipv4Mapped ip with
  | some mapped => V4.isUnspecified mapped
  | none => ip == 0

def isReserved (ip : ℕ) : Bool :=
  match ipv4Mapped ip with
  | some mapped => V4.isReserved mapped
  | none => reservedNetworks.any (inNetwork 128 · ip)

end V6

/-! ## What the fetch refuses -/

def refused : IPAddress → Bool
  | .v4 ip => V4.isPrivate ip || V4.isLoopback ip || V4.isLinkLocal ip || V4.isMulticast ip ||
      V4.isUnspecified ip || V4.isReserved ip
  | .v6 ip _ => V6.isPrivate ip || V6.isLoopback ip || V6.isLinkLocal ip || V6.isMulticast ip ||
      V6.isUnspecified ip || V6.isReserved ip

/-- A text that is no address counts as private. -/
def isPrivateIp (ipAddress : String → Option IPAddress) (ip : String) : Bool :=
  (ipAddress ip).all refused

def fakeIpProxyNetwork : ℕ × ℕ := (quad 198 18 0 0, 15)

def IPAddress.inFakeIpProxyNetwork : IPAddress → Bool
  | .v4 ip => inNetwork 32 fakeIpProxyNetwork ip
  | .v6 _ _ => false

def isFakeIpProxyAddress (ipAddress : String → Option IPAddress) (ip : String) : Bool :=
  (ipAddress ip).any IPAddress.inFakeIpProxyNetwork

/-! ## What is globally routable -/

/-- First and last address of the ranges of version 4 that are not globally routable. -/
def V4.special : List (ℕ × ℕ) :=
  [(quad 0 0 0 0, quad 0 255 255 255), (quad 10 0 0 0, quad 10 255 255 255),
    (quad 100 64 0 0, quad 100 127 255 255), (quad 127 0 0 0, quad 127 255 255 255),
    (quad 169 254 0 0, quad 169 254 255 255), (quad 172 16 0 0, quad 172 31 255 255),
    (quad 192 0 0 0, quad 192 0 0 8), (quad 192 0 0 11, quad 192 0 0 255),
    (quad 192 0 2 0, quad 192 0 2 255), (quad 192 168 0 0, quad 192 168 255 255),
    (quad 198 18 0 0, quad 198 19 255 255), (quad 198 51 100 0, quad 198 51 100 255),
    (quad 203 0 113 0, quad 203 0 113 255), (quad 224 0 0 0, quad 239 255 255 255),
    (quad 240 0 0 0, quad 255 255 255 255)]

def V4.Routable (ip : ℕ) : Prop := ∀ r ∈ V4.special, ¬(r.1 ≤ ip ∧ ip ≤ r.2)

/-- The global addresses of version 6 that are not routable: those of protocols but for
five blocks of them, those for documentation, and those of a relay for version 4. -/
def V6.special : List (ℕ × ℕ) :=
  [(groups [0x2001], groups [0x2001, 1]),
    (groups [0x2001, 1, 0, 0, 0, 0, 0, 3], groups [0x2001, 3] - 1),
    (groups [0x2001, 4], groups [0x2001, 4, 0x112] - 1),
    (groups [0x2001, 4, 0x113], groups [0x2001, 0x20] - 1),
    (groups [0x2001, 0x40], groups [0x2001, 0x200] - 1),
    (groups [0x2001, 0xdb8], groups [0x2001, 0xdb9] - 1),
    (groups [0x3fff], groups [0x3fff, 0x1000] - 1)]

/-- The addresses of version 4 in one of version 6 that is not mapped: compatible, behind a
translator, of a relay, and the two of a tunnel. -/
def V6.embedded (ip : ℕ) : List ℕ :=
  (if ip / 2 ^ 32 = 0 ∨ ip / 2 ^ 32 = 0x64ff9b * 2 ^ 64 then [ip % 2 ^ 32] else []) ++
  (if ip / 2 ^ 112 = 0x2002 then [ip / 2 ^ 80 % 2 ^ 32] else []) ++
  (if ip / 2 ^ 96 = 0x20010000 then
    [ip / 2 ^ 64 % 2 ^ 32, (2 ^ 128 - 1 - ip) % 2 ^ 32] else [])

/-- Only an eighth of the addresses of version 6 is given out for global use; a connection to a
mapped address goes to the address of version 4. -/
def V6.Routable (ip : ℕ) : Prop :=
  match ipv4Mapped ip with
  | some mapped => V4.Routable mapped
  | none =>
      groups [0x2000] ≤ ip ∧ ip < groups [0x4000] ∧ (∀ r ∈ V6.special, ¬(r.1 ≤ ip ∧ ip ≤ r.2)) ∧
        ∀ e ∈ V6.embedded ip, V4.Routable e

def IPAddress.Routable : IPAddress → Prop
  | .v4 ip => V4.Routable ip
  | .v6 ip _ => V6.Routable ip

/-- The addresses shared between a provider and its customers. -/
def V4.Shared (ip : ℕ) : Prop := quad 100 64 0 0 ≤ ip ∧ ip ≤ quad 100 127 255 255

/-- The shared addresses, also mapped ones, and those of one site. -/
def V6.SharedOrSiteLocal (ip : ℕ) : Prop :=
  match ipv4Mapped ip with
  | some mapped => V4.Shared mapped
  | none => groups [0xfec0] ≤ ip ∧ ip < groups [0xff00]

def IPAddress.SharedOrSiteLocal : IPAddress → Prop
  | .v4 ip => V4.Shared ip
  | .v6 ip _ => V6.SharedOrSiteLocal ip

/-! ## What the ranges cover -/

variable {width ip : ℕ} {n r : ℕ × ℕ} {networks exceptions : List (ℕ × ℕ)}

def firstOf (width : ℕ) (n : ℕ × ℕ) : ℕ := n.1 / 2 ^ (width - n.2) * 2 ^ (width - n.2)

/-- The first address after a network. -/
def past (width : ℕ) (n : ℕ × ℕ) : ℕ := (n.1 / 2 ^ (width - n.2) + 1) * 2 ^ (width - n.2)

theorem inNetwork_iff : inNetwork width n ip = true ↔ firstOf width n ≤ ip ∧ ip < past width n := by
  unfold inNetwork firstOf past
  rw [beq_iff_eq]
  have hpos : 0 < 2 ^ (width - n.2) := Nat.two_pow_pos _
  constructor
  · intro h
    rw [← h]
    exact ⟨Nat.div_mul_le_self ip _, by
      rw [Nat.add_one_mul]
      exact Nat.lt_div_mul_add hpos⟩
  · rintro ⟨hfirst, hpast⟩
    exact Nat.div_eq_of_lt_le hfirst hpast

/-- A range lies in one of some networks and clear of all exceptions. -/
def Covered (width : ℕ) (networks exceptions : List (ℕ × ℕ)) (r : ℕ × ℕ) : Prop :=
  (∃ n ∈ networks, firstOf width n ≤ r.1 ∧ r.2 < past width n) ∧
    ∀ e ∈ exceptions, r.2 < firstOf width e ∨ past width e ≤ r.1

instance : Decidable (Covered width networks exceptions r) :=
  inferInstanceAs (Decidable (_ ∧ _))

theorem Covered.any (h : Covered width networks exceptions r) (hlow : r.1 ≤ ip) (hhigh : ip ≤ r.2) :
    (networks.any (inNetwork width · ip) && exceptions.all (!inNetwork width · ip)) = true := by
  obtain ⟨⟨n, hn, hfirst, hpast⟩, hexceptions⟩ := h
  rw [Bool.and_eq_true, List.any_eq_true, List.all_eq_true]
  refine ⟨⟨n, hn, inNetwork_iff.mpr ⟨by omega, by omega⟩⟩, ?_⟩
  intro e he
  rw [Bool.not_eq_true', Bool.eq_false_iff]
  intro hin
  obtain ⟨hfirst', hpast'⟩ := inNetwork_iff.mp hin
  rcases hexceptions e he with hbefore | hafter
  · omega
  · omega

theorem V4.isPrivate_of_covered (h : Covered 32 privateNetworks privateNetworksExceptions r)
    (hlow : r.1 ≤ ip) (hhigh : ip ≤ r.2) : isPrivate ip = true := h.any hlow hhigh

theorem V4.covered : ∀ r ∈ V4.special, r = (quad 100 64 0 0, quad 100 127 255 255) ∨
    r = (quad 224 0 0 0, quad 239 255 255 255) ∨
      Covered 32 privateNetworks privateNetworksExceptions r := by
  decide

/-- A special address of version 4 is refused unless it is a shared one. -/
theorem refused_v4 (ip : Fin (2 ^ 32)) (hspecial : ¬V4.Routable ip)
    (hshared : ¬IPAddress.SharedOrSiteLocal (.v4 ip)) : refused (.v4 ip) = true := by
  unfold V4.Routable at hspecial
  rw [Classical.not_forall] at hspecial
  obtain ⟨r, hr⟩ := hspecial
  rw [Classical.not_imp, Classical.not_not] at hr
  obtain ⟨hmem, hlow, hhigh⟩ := hr
  change (V4.isPrivate ip || _ || _ || V4.isMulticast ip || _ || _) = true
  rcases V4.covered r hmem with rfl | rfl | hcovered
  · exact absurd ⟨hlow, hhigh⟩ hshared
  · have hmulticast : V4.isMulticast ip = true := inNetwork_iff.mpr ⟨hlow, Nat.lt_succ_of_le hhigh⟩
    simp [hmulticast]
  · rw [V4.isPrivate_of_covered hcovered hlow hhigh]
    rfl

/-- A mapped address is refused as the address of version 4 is. -/
theorem refused_mapped {ip : Fin (2 ^ 128)} {mapped : Fin (2 ^ 32)} (scopeId : Option String)
    (h : V6.ipv4Mapped ip = some mapped.val) : refused (.v6 ip scopeId) = refused (.v4 mapped) := by
  unfold refused V6.isPrivate V6.isLoopback V6.isLinkLocal V6.isMulticast V6.isUnspecified
    V6.isReserved
  simp only [h]

theorem V6.lt_of_mapped {mapped : ℕ} (h : ipv4Mapped ip = some mapped) : mapped < 2 ^ 32 := by
  unfold ipv4Mapped at h
  split at h
  · obtain rfl := Option.some.inj h
    exact Nat.mod_lt _ (Nat.two_pow_pos 32)
  · cases h

theorem V6.isPrivate_of_covered (hunmapped : ipv4Mapped ip = none)
    (h : Covered 128 privateNetworks privateNetworksExceptions r) (hlow : r.1 ≤ ip)
    (hhigh : ip ≤ r.2) : isPrivate ip = true := by
  unfold isPrivate
  rw [hunmapped]
  exact h.any hlow hhigh

theorem V6.covered : ∀ r ∈ V6.special,
    Covered 128 privateNetworks privateNetworksExceptions r := by
  decide +kernel

/-- The networks that are told by the first ten bits of an address. -/
theorem inNetwork_top (hlength : n.2 ≤ 10) :
    inNetwork 128 n ip = (ip / 2 ^ 118 / 2 ^ (10 - n.2) == n.1 / 2 ^ (128 - n.2)) := by
  unfold inNetwork
  rw [Nat.div_div_eq_div_mul, ← Nat.pow_add]
  have hsum : 118 + (10 - n.2) = 128 - n.2 := by omega
  rw [hsum]

theorem V6.top_covered : ∀ m ∈ List.range 1024, 128 ≤ m ∧ m < 256 ∨ m = 0x3fb ∨
    ((groups [0xfc00], 7) :: multicastNetwork :: linklocalNetwork :: reservedNetworks).any
      (fun n ↦ n.2 ≤ 10 && m / 2 ^ (10 - n.2) == n.1 / 2 ^ (128 - n.2)) := by
  decide +kernel

/-- Outside of the global addresses only those of one site are let through. -/
theorem refused_outside (ip : Fin (2 ^ 128)) (scopeId : Option String)
    (hunmapped : V6.ipv4Mapped ip = none)
    (houtside : ¬(groups [0x2000] ≤ ip.val ∧ ip.val < groups [0x4000]))
    (hsite : ¬(groups [0xfec0] ≤ ip.val ∧ ip.val < groups [0xff00])) :
    refused (.v6 ip scopeId) = true := by
  have hlt := ip.isLt
  simp only [groups, List.foldl, List.length] at houtside hsite
  have hrange : ip.val / 2 ^ 118 ∈ List.range 1024 := by
    rw [List.mem_range]
    omega
  change (V6.isPrivate ip || _ || V6.isLinkLocal ip || V6.isMulticast ip || _ ||
    V6.isReserved ip) = true
  rcases V6.top_covered _ hrange with hglobal | hlocal | hnetwork
  · omega
  · omega
  · rw [List.any_eq_true] at hnetwork
    obtain ⟨n, hn, hin⟩ := hnetwork
    rw [Bool.and_eq_true, decide_eq_true_eq] at hin
    obtain ⟨hlength, hin⟩ := hin
    rw [← inNetwork_top hlength] at hin
    rcases List.mem_cons.mp hn with rfl | hn
    · have hprivate : V6.isPrivate ip = true := by
        obtain ⟨hlow, hhigh⟩ := inNetwork_iff.mp hin
        refine V6.isPrivate_of_covered (r := (groups [0xfc00], groups [0xfe00] - 1)) hunmapped ?_
          hlow (Nat.le_sub_one_of_lt hhigh)
        decide +kernel
      simp [hprivate]
    · rcases List.mem_cons.mp hn with rfl | hn
      · have hmulticast : V6.isMulticast ip = true := by
          unfold V6.isMulticast
          rw [hunmapped]
          exact hin
        simp [hmulticast]
      · rcases List.mem_cons.mp hn with rfl | hn
        · have hlinklocal : V6.isLinkLocal ip = true := by
            unfold V6.isLinkLocal
            rw [hunmapped]
            exact hin
          simp [hlinklocal]
        · have hreserved : V6.isReserved ip = true := by
            unfold V6.isReserved
            rw [hunmapped]
            exact List.any_eq_true.mpr ⟨n, hn, hin⟩
          simp [hreserved]

/-- A special address of version 6 that is not mapped, or one that stands for a special one of
version 4, is refused unless it is one of a site. -/
theorem refused_unmapped (ip : Fin (2 ^ 128)) (scopeId : Option String)
    (hunmapped : V6.ipv4Mapped ip = none) (hspecial : ¬V6.Routable ip)
    (hsite : ¬(groups [0xfec0] ≤ ip.val ∧ ip.val < groups [0xff00])) :
    refused (.v6 ip scopeId) = true := by
  by_cases hglobal : groups [0x2000] ≤ ip.val ∧ ip.val < groups [0x4000]
  · have hprivate : V6.isPrivate ip = true := by
      by_cases hrange : ∃ r ∈ V6.special, r.1 ≤ ip.val ∧ ip.val ≤ r.2
      · obtain ⟨r, hr, hlow, hhigh⟩ := hrange
        exact V6.isPrivate_of_covered hunmapped (V6.covered r hr) hlow hhigh
      · have hembedded : V6.embedded ip ≠ [] := by
          intro hnil
          apply hspecial
          unfold V6.Routable
          rw [hunmapped]
          refine ⟨hglobal.1, hglobal.2, fun r hr h ↦ hrange ⟨r, hr, h⟩, ?_⟩
          rw [hnil]
          exact fun e he ↦ absurd he List.not_mem_nil
        have htunnel : ip.val / 2 ^ 96 ≠ 0x20010000 := by
          intro htunnel
          apply hrange
          refine ⟨(groups [0x2001], groups [0x2001, 1]), by decide +kernel, ?_⟩
          simp only [groups, List.foldl, List.length]
          omega
        have hrelay : ip.val / 2 ^ 112 = 0x2002 := by
          by_contra hrelay
          apply hembedded
          simp only [groups, List.foldl, List.length] at hglobal
          unfold V6.embedded
          rw [if_neg (by omega), if_neg hrelay, if_neg htunnel]
          rfl
        refine V6.isPrivate_of_covered (r := (groups [0x2002], groups [0x2003] - 1)) hunmapped
          ?_ ?_ ?_
        · decide +kernel
        · simp only [groups, List.foldl, List.length]
          omega
        · simp only [groups, List.foldl, List.length]
          omega
    change (V6.isPrivate ip || _ || _ || _ || _ || _) = true
    simp [hprivate]
  · exact refused_outside ip scopeId hunmapped hglobal hsite

/-- What is neither routable nor shared nor of a site is refused. -/
theorem refused_v6 (ip : Fin (2 ^ 128)) (scopeId : Option String) (hspecial : ¬V6.Routable ip)
    (hshared : ¬V6.SharedOrSiteLocal ip) : refused (.v6 ip scopeId) = true := by
  have hroutable := hspecial
  unfold V6.Routable at hroutable
  unfold V6.SharedOrSiteLocal at hshared
  cases hmapped : V6.ipv4Mapped ip with
  | some mapped =>
      rw [hmapped] at hroutable hshared
      have hlt := V6.lt_of_mapped hmapped
      have hsame : refused (.v6 ip scopeId) = refused (.v4 ⟨mapped, hlt⟩) :=
        refused_mapped scopeId hmapped
      rw [hsame]
      exact refused_v4 ⟨mapped, hlt⟩ hroutable hshared
  | none =>
      rw [hmapped] at hshared
      exact refused_unmapped ip scopeId hmapped hspecial hshared

/-- What is not refused is globally routable, or shared, or of a site. -/
theorem routable_of_not_refused {a : IPAddress} (h : refused a = false) :
    a.Routable ∨ a.SharedOrSiteLocal := by
  by_contra hneither
  rw [not_or] at hneither
  cases a with
  | v4 ip => exact absurd (refused_v4 ip hneither.1 hneither.2) (by simp [h])
  | v6 ip scopeId => exact absurd (refused_v6 ip scopeId hneither.1 hneither.2) (by simp [h])

example : refused (.v6 ⟨0xffff * 2 ^ 32 + quad 100 64 0 1, by decide⟩ none) = false := by
  decide +kernel

theorem V4.not_routable_of_shared (h : V4.Shared ip) : ¬V4.Routable ip :=
  fun hroutable ↦ hroutable (quad 100 64 0 0, quad 100 127 255 255) (by decide) h

theorem not_routable_of_shared {a : IPAddress} (h : a.SharedOrSiteLocal) : ¬a.Routable := by
  cases a with
  | v4 ip => exact V4.not_routable_of_shared h
  | v6 ip scopeId =>
      change V6.SharedOrSiteLocal ip at h
      change ¬V6.Routable ip
      unfold V6.SharedOrSiteLocal at h
      unfold V6.Routable
      cases hmapped : V6.ipv4Mapped ip with
      | some mapped =>
          rw [hmapped] at h
          exact V4.not_routable_of_shared h
      | none =>
          rw [hmapped] at h
          intro hroutable
          have hlow := h.1
          have hhigh := hroutable.2.1
          simp only [groups, List.foldl, List.length] at hlow hhigh
          omega

theorem not_fake_of_shared {a : IPAddress} (h : a.SharedOrSiteLocal) :
    a.inFakeIpProxyNetwork = false := by
  cases a with
  | v4 ip =>
      rw [Bool.eq_false_iff]
      intro hfake
      obtain ⟨hfirst, _⟩ := inNetwork_iff.mp hfake
      exact absurd (Nat.le_trans hfirst h.2) (by decide)
  | v6 ip scopeId => rfl

end ShejaneRuntime.WebFetch
