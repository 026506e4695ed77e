import OpenStreamGrid.Common.PeerAddress
import OpenStreamGrid.Lib.IpAddress

/-!
# Reserved peer addresses

The tracker checks the text of a peer's host, the peers a block list of subnets.
On a host that is an address the two agree: the text is the address's canonical
one, and what the textual check compares are the octets and pieces in it.
-/

namespace OpenStreamGrid

/-- Addresses a peer must not make other peers connect to. -/
def RESERVED_PEER_ADDRESSES : List BlockRule :=
  [.v4 ⟨127, 0, 0, 0⟩ 8,
   .v4 ⟨169, 254, 0, 0⟩ 16,
   .v4 ⟨0, 0, 0, 0⟩ 32,
   .v6 ⟨0, 0, 0, 0, 0, 0, 0, 0⟩ 128,
   .v6 ⟨0, 0, 0, 0, 0, 0, 0, 1⟩ 128,
   .v6 ⟨0xfe80, 0, 0, 0, 0, 0, 0, 0⟩ 10,
   .v6 ⟨0, 0, 0, 0, 0, 0xffff, 0x7f00, 0⟩ 104,
   .v6 ⟨0, 0, 0, 0, 0, 0xffff, 0xa9fe, 0⟩ 112,
   .v6 ⟨0, 0, 0, 0, 0, 0xffff, 0, 0⟩ 128]

/-- True if the address is one other peers must not be sent to. -/
def isReservedPeerAddress (address : IpAddress) : Bool :=
  blockListCheck RESERVED_PEER_ADDRESSES address

/-- The host's text without the brackets of an IPv6 address. -/
def IpAddress.text : IpAddress → List Char
  | .v4 x => x.text
  | .v6 x => x.text

/-- The `hostname` of a URL whose host is an address. -/
def IpAddress.hostname : IpAddress → String
  | .v4 x => String.ofList x.text
  | .v6 x => String.ofList ('[' :: x.text ++ [']'])

/-- An otherwise valid base URL whose host, in whatever form, was read as an address. -/
structure LiteralBaseUrl (host : IpAddress) where
  url : AddressUrl
  protocol : url.protocol = "http:" ∨ url.protocol = "https:"
  username : url.username = ""
  password : url.password = ""
  hostname : url.hostname = host.hostname
  search : url.search = ""
  hash : url.hash = ""

instance (host : IpAddress) : Inhabited (LiteralBaseUrl host) where
  default :=
    { url := ⟨"http:", "", "", host.hostname, "/", "", ""⟩
      protocol := Or.inl rfl
      username := rfl
      password := rfl
      hostname := rfl
      search := rfl
      hash := rfl }

/-! ## What the block list holds -/

/-- Loopback, link-local and unspecified IPv4 addresses. -/
def Ipv4Address.Reserved (x : Ipv4Address) : Prop :=
  x.a = 127 ∨ x.a = 169 ∧ x.b = 254 ∨ x = ⟨0, 0, 0, 0⟩

/-- The unspecified, the loopback and the link-local IPv6 addresses. -/
def Ipv6Address.Reserved (x : Ipv6Address) : Prop :=
  x = ⟨0, 0, 0, 0, 0, 0, 0, 0⟩ ∨ x = ⟨0, 0, 0, 0, 0, 0, 0, 1⟩ ∨
    0xfe80 ≤ (x.p₀ : ℕ) ∧ (x.p₀ : ℕ) ≤ 0xfebf

theorem isReserved_v4 (x : Ipv4Address) :
    isReservedPeerAddress (.v4 x) = true ↔ x.Reserved := by
  obtain ⟨⟨a, ha⟩, ⟨b, hb⟩, ⟨c, hc⟩, ⟨d, hd⟩⟩ := x
  unfold Ipv4Address.Reserved
  simp [isReservedPeerAddress, blockListCheck, RESERVED_PEER_ADDRESSES, BlockRule.Matches,
    sameSubnet, Ipv4Address.value, Ipv6Address.value, Ipv6Address.pieces, Ipv6Address.mapped,
    Fin.ext_iff]
  omega

theorem isReserved_mapped (y : Ipv4Address) :
    isReservedPeerAddress (.v6 (Ipv6Address.mapped y)) = true ↔ y.Reserved := by
  have hembedded := Ipv6Address.embedded_mapped y
  obtain ⟨⟨a, ha⟩, ⟨b, hb⟩, ⟨c, hc⟩, ⟨d, hd⟩⟩ := y
  unfold Ipv4Address.Reserved
  simp only [isReservedPeerAddress, blockListCheck, RESERVED_PEER_ADDRESSES, BlockRule.Matches,
    hembedded, List.any_cons, List.any_nil, Option.any_some]
  simp [sameSubnet, Ipv4Address.value, Ipv6Address.value, Ipv6Address.pieces, Ipv6Address.mapped,
    Fin.ext_iff]
  omega

theorem value_ne_of_embedded_none {x : Ipv6Address} (hnone : x.embedded = none) :
    x.value / 2 ^ 32 ≠ 65535 := by
  intro hvalue
  unfold Ipv6Address.embedded at hnone
  split_ifs at hnone with hzero
  apply hzero
  obtain ⟨⟨p₀, h₀⟩, ⟨p₁, h₁⟩, ⟨p₂, h₂⟩, ⟨p₃, h₃⟩, ⟨p₄, h₄⟩, ⟨p₅, h₅⟩, ⟨p₆, h₆⟩, ⟨p₇, h₇⟩⟩ := x
  simp only [Ipv6Address.value, Ipv6Address.pieces, List.foldl_cons, List.foldl_nil] at hvalue
  simp only [Fin.ext_iff, Fin.val_zero]
  show p₀ = 0 ∧ p₁ = 0 ∧ p₂ = 0 ∧ p₃ = 0 ∧ p₄ = 0 ∧ p₅ = 65535
  omega

/-- Off the mapped addresses only the rules of the IPv6 family match. -/
theorem isReserved_of_embedded_none {x : Ipv6Address} (hnone : x.embedded = none) :
    isReservedPeerAddress (.v6 x) = true ↔ x.Reserved := by
  have hmapped := value_ne_of_embedded_none hnone
  have hrules : isReservedPeerAddress (.v6 x) = true ↔
      x.value = 0 ∨ x.value = 1 ∨ x.value / 2 ^ 118 = 0xfe80 / 2 ^ 6 := by
    simp only [isReservedPeerAddress, blockListCheck, RESERVED_PEER_ADDRESSES, BlockRule.Matches,
      hnone, List.any_cons, List.any_nil, Option.any_none, Bool.false_or, Bool.or_false,
      Bool.or_eq_true, sameSubnet, decide_eq_true_eq]
    generalize x.value = value at hmapped ⊢
    simp [Ipv6Address.value, Ipv6Address.pieces]
    omega
  rw [hrules]
  obtain ⟨⟨p₀, h₀⟩, ⟨p₁, h₁⟩, ⟨p₂, h₂⟩, ⟨p₃, h₃⟩, ⟨p₄, h₄⟩, ⟨p₅, h₅⟩, ⟨p₆, h₆⟩, ⟨p₇, h₇⟩⟩ := x
  simp only [Ipv6Address.Reserved, Ipv6Address.value, Ipv6Address.pieces, Fin.ext_iff,
    Ipv6Address.mk.injEq, List.foldl_cons, List.foldl_nil, Fin.val_zero, Fin.val_one]
  apply or_congr
  · omega
  · apply or_congr
    · omega
    · omega

/-! ## What the text says -/

/-- The comparisons `validatePeerHttpBaseUrl` makes on a host. -/
def UnsafeHostname (hostname : String) : Prop :=
  hostname ∈ UNSAFE_PEER_HOSTNAMES ∨ ".localhost".toList <:+ hostname.toList ∨
    "127.".toList <+: hostname.toList ∨ "169.254.".toList <+: hostname.toList ∨
    isLinkLocal hostname.toList

instance (hostname : String) : Decidable (UnsafeHostname hostname) :=
  inferInstanceAs (Decidable (_ ∨ _))

theorem foldlM_toDigits (n : ℕ) : (Nat.toDigits 16 n).foldlM
    (fun value c => (hexDigitValue c).map (16 * value + ·)) 0 = some n := by
  induction n using Nat.strong_induction_on with
  | _ n ih =>
      rw [Nat.toDigits_eq_if (by decide)]
      split_ifs with hn
      · simp [hexDigitValue_digitChar hn]
      · have hmod : n % 16 < 16 := Nat.mod_lt n (by decide)
        rw [List.foldlM_append, ih (n / 16) (by omega)]
        simp [hexDigitValue_digitChar hmod, Nat.div_add_mod]

/-- A piece is read back from its digits. -/
theorem hexGroup?_toDigits {n : ℕ} (h : n < 65536) : hexGroup? (Nat.toDigits 16 n) = some n := by
  have hlength : (Nat.toDigits 16 n).length ≤ 4 :=
    (Nat.length_toDigits_le_iff (by decide) (by decide)).mpr h
  have hsome : (Nat.toDigits 16 n).length ≠ 0 := by simp
  have hcase : "0123456789abcdef".toList.all fun c => c ∉ ['A', 'B', 'C', 'D', 'E', 'F'] := by
    decide
  have hlower : ¬ (Nat.toDigits 16 n).any
      (fun c => decide (c ∈ ['A', 'B', 'C', 'D', 'E', 'F'])) = true := by
    rw [List.any_eq_true]
    rintro ⟨c, hc, hupper⟩
    have hdigit : IsHexDigit c := isHexDigit_of_mem (by decide) le_rfl hc
    exact of_decide_eq_true (List.all_eq_true.mp hcase c hdigit) (of_decide_eq_true hupper)
  have hgroup : ¬ ((Nat.toDigits 16 n).length = 0 ∨ (Nat.toDigits 16 n).length > 4 ∨
      (Nat.toDigits 16 n).any (fun c => decide (c ∈ ['A', 'B', 'C', 'D', 'E', 'F'])) = true) := by
    rintro (hempty | hlong | hupper)
    · exact hsome hempty
    · omega
    · exact hlower hupper
  unfold hexGroup?
  rw [if_neg hgroup, foldlM_toDigits]

/-! ### IPv4 addresses -/

theorem mem_unsafeHostnames_iff (text : List Char) : String.ofList text ∈ UNSAFE_PEER_HOSTNAMES ↔
    text ∈ UNSAFE_PEER_HOSTNAMES.map String.toList := by
  rw [List.mem_map]
  constructor
  · exact fun h => ⟨_, h, String.toList_ofList⟩
  · rintro ⟨name, hname, rfl⟩
    rwa [String.ofList_toList]

theorem loopback_prefix_iff (y : Ipv4Address) : "127.".toList <+: y.text ↔ y.a = 127 := by
  have hdigits : Nat.toDigits 10 127 = "127".toList := by decide
  constructor
  · rintro ⟨rest, hrest⟩
    have hsplit : ("127".toList ++ '.' :: rest).splitOn '.' = "127".toList :: rest.splitOn '.' :=
      List.splitOn_append_cons_self_of_not_mem (by decide) _
    rw [show "127".toList ++ '.' :: rest = y.text from hrest, Ipv4Address.splitOn_text] at hsplit
    have ha : (y.a : ℕ) = 127 :=
      toDigits_inj (by decide) (by decide) ((List.cons.inj hsplit).1.trans hdigits.symm)
    exact Fin.ext ha
  · intro ha
    refine ⟨Nat.toDigits 10 y.b ++ '.' :: (Nat.toDigits 10 y.c ++ '.' :: Nat.toDigits 10 y.d), ?_⟩
    unfold Ipv4Address.text
    rw [ha]
    show _ = Nat.toDigits 10 127 ++ _
    rw [hdigits]
    rfl

theorem linkLocal_prefix_iff (y : Ipv4Address) :
    "169.254.".toList <+: y.text ↔ y.a = 169 ∧ y.b = 254 := by
  have hfirst : Nat.toDigits 10 169 = "169".toList := by decide
  have hsecond : Nat.toDigits 10 254 = "254".toList := by decide
  constructor
  · rintro ⟨rest, hrest⟩
    have hsplit : ("169".toList ++ '.' :: ("254".toList ++ '.' :: rest)).splitOn '.'
        = "169".toList :: "254".toList :: rest.splitOn '.' := by
      rw [List.splitOn_append_cons_self_of_not_mem (by decide),
        List.splitOn_append_cons_self_of_not_mem (by decide)]
    rw [show "169".toList ++ '.' :: ("254".toList ++ '.' :: rest) = y.text from hrest,
      Ipv4Address.splitOn_text] at hsplit
    obtain ⟨ha, htail⟩ := List.cons.inj hsplit
    have hb := (List.cons.inj htail).1
    exact ⟨Fin.ext (toDigits_inj (by decide) (by decide) (ha.trans hfirst.symm)),
      Fin.ext (toDigits_inj (by decide) (by decide) (hb.trans hsecond.symm))⟩
  · rintro ⟨ha, hb⟩
    refine ⟨Nat.toDigits 10 y.c ++ '.' :: Nat.toDigits 10 y.d, ?_⟩
    unfold Ipv4Address.text
    rw [ha, hb]
    show _ = Nat.toDigits 10 169 ++ '.' :: (Nat.toDigits 10 254 ++ _)
    rw [hfirst, hsecond]
    rfl

theorem text_unspecified : Ipv4Address.text ⟨0, 0, 0, 0⟩ = "0.0.0.0".toList := by decide

theorem colon_mem_of_isLinkLocal {text : List Char} (h : isLinkLocal text = true) : ':' ∈ text := by
  unfold isLinkLocal at h
  split at h
  · simp
  · exact absurd h (by decide)

/-- The names among the unsafe hosts have a character that no IPv4 address has. -/
theorem unsafeHostname_v4 (y : Ipv4Address) :
    UnsafeHostname (String.ofList y.text) ↔ y.Reserved := by
  have hmark : ∀ ch, ¬ (IsHexDigit ch ∨ ch = '.') → ch ∉ y.text :=
    fun ch hch hmem => hch (Ipv4Address.mem_text hmem)
  unfold UnsafeHostname
  rw [mem_unsafeHostnames_iff, @String.toList_ofList y.text, loopback_prefix_iff, linkLocal_prefix_iff]
  constructor
  · rintro (hname | hlocal | hloopback | hlinkLocal | hlinkLocal)
    · simp only [UNSAFE_PEER_HOSTNAMES, List.map_cons, List.map_nil, List.mem_cons,
        List.not_mem_nil, or_false] at hname
      rcases hname with htext | htext | htext | htext | htext
      · exact Or.inr (Or.inr (Ipv4Address.text_inj (htext.trans text_unspecified.symm)))
      · exact absurd (htext ▸ by decide) (hmark ':' (by decide))
      · exact absurd (htext ▸ by decide) (hmark ':' (by decide))
      · exact absurd (htext ▸ by decide) (hmark 'l' (by decide))
      · exact absurd (htext ▸ by decide) (hmark 'm' (by decide))
    · have hletter : 'l' ∈ y.text := hlocal.subset (by decide)
      exact absurd hletter (hmark 'l' (by decide))
    · exact Or.inl hloopback
    · exact Or.inr (Or.inl hlinkLocal)
    · exact absurd (colon_mem_of_isLinkLocal hlinkLocal) (hmark ':' (by decide))
  · rintro (hloopback | hlinkLocal | rfl)
    · exact Or.inr (Or.inr (Or.inl hloopback))
    · exact Or.inr (Or.inr (Or.inr (Or.inl hlinkLocal)))
    · rw [text_unspecified]
      exact Or.inl (List.mem_cons_self ..)

/-! ### IPv6 addresses -/

theorem isLinkLocal_iff {text : List Char} : isLinkLocal text = true ↔
    ∃ third fourth rest, text = 'f' :: 'e' :: third :: fourth :: ':' :: rest ∧
      third ∈ ['8', '9', 'a', 'b'] ∧ (hexDigitValue fourth).isSome := by
  constructor
  · intro h
    unfold isLinkLocal at h
    split at h
    · rename_i third fourth rest
      obtain ⟨hthird, hfourth⟩ := Bool.and_eq_true_iff.mp h
      exact ⟨third, fourth, rest, rfl, of_decide_eq_true hthird, hfourth⟩
    · exact absurd h (by decide)
  · rintro ⟨third, fourth, rest, rfl, hthird, hfourth⟩
    exact Bool.and_eq_true_iff.mpr ⟨decide_eq_true hthird, hfourth⟩

/-- The digits `isLinkLocal` accepts are those of a range of pieces. -/
theorem hexGroup?_linkLocal : ['8', '9', 'a', 'b'].all fun third =>
    "0123456789abcdef".toList.all fun fourth =>
      (hexGroup? ['f', 'e', third, fourth]).all fun p => 0xfe80 ≤ p ∧ p ≤ 0xfebf := by
  decide

theorem isLinkLocal_text_iff (x : Ipv6Address) :
    isLinkLocal x.text = true ↔ 0xfe80 ≤ (x.p₀ : ℕ) ∧ (x.p₀ : ℕ) ≤ 0xfebf := by
  have hcolon : ∀ c, IsHexDigit c → c ≠ ':' := by
    rintro c hc rfl
    exact absurd hc (by decide)
  rcases x.text_cases with ⟨rest, htext⟩ | ⟨hzero, rest, htext⟩
  · have hdigits : ∀ c ∈ Nat.toDigits 16 x.p₀, IsHexDigit c :=
      fun c => isHexDigit_of_mem (by decide) le_rfl
    rw [htext]
    constructor
    · rw [isLinkLocal_iff]
      rintro ⟨third, fourth, rest', hrest, hthird, hfourth⟩
      -- the first colon ends the digits of the first piece
      have hthirdNe : third ≠ ':' := by
        rintro rfl
        exact absurd hthird (by decide)
      have hfourthNe : fourth ≠ ':' := by
        rintro rfl
        exact absurd hfourth (by decide)
      have hpiece : Nat.toDigits 16 x.p₀ = ['f', 'e', third, fourth] := by
        have hsplit := congrArg (List.splitOn ':') hrest
        rw [List.splitOn_append_cons_self_of_not_mem fun h => hcolon _ (hdigits _ h) rfl] at hsplit
        have hright : (['f', 'e', third, fourth] ++ ':' :: rest').splitOn ':'
            = ['f', 'e', third, fourth] :: rest'.splitOn ':' :=
          List.splitOn_append_cons_self_of_not_mem (by
            simp [hthirdNe.symm, hfourthNe.symm]) _
        exact (List.cons.inj (hsplit.trans hright)).1
      have hfourthDigit : IsHexDigit fourth := by
        apply hdigits
        rw [hpiece]
        simp
      have hrange := List.all_eq_true.mp
        (List.all_eq_true.mp hexGroup?_linkLocal third hthird) fourth hfourthDigit
      rw [← hpiece, hexGroup?_toDigits x.p₀.isLt] at hrange
      exact of_decide_eq_true hrange
    · rintro ⟨hlow, hhigh⟩
      generalize (x.p₀ : ℕ) = p at hlow hhigh ⊢
      interval_cases p <;> rfl
  · rw [htext, hzero]
    constructor
    · rw [isLinkLocal_iff]
      rintro ⟨third, fourth, rest', hrest, -⟩
      exact absurd (List.cons.inj hrest).1 (by decide)
    · exact fun h => absurd h.1 (by decide)

theorem unsafeHostname_v6 (x : Ipv6Address) :
    UnsafeHostname (String.ofList x.text) ↔ x.Reserved := by
  have hmark : ∀ ch, ¬ (IsHexDigit ch ∨ ch = ':') → ch ∉ x.text :=
    fun ch hch hmem => hch (Ipv6Address.mem_text hmem)
  have hdot : '.' ∉ x.text := hmark '.' (by decide)
  unfold UnsafeHostname
  rw [mem_unsafeHostnames_iff, @String.toList_ofList x.text, isLinkLocal_text_iff]
  constructor
  · rintro (hname | hlocal | hloopback | hlinkLocal | hlinkLocal)
    · simp only [UNSAFE_PEER_HOSTNAMES, List.map_cons, List.map_nil, List.mem_cons,
        List.not_mem_nil, or_false] at hname
      rcases hname with htext | htext | htext | htext | htext
      · exact absurd (htext ▸ by decide) hdot
      · exact Or.inl (Ipv6Address.text_eq_unspecified_iff.mp htext)
      · exact Or.inr (Or.inl (Ipv6Address.text_eq_loopback_iff.mp htext))
      · exact absurd (htext ▸ by decide) (hmark 'l' (by decide))
      · exact absurd (htext ▸ by decide) (hmark 'm' (by decide))
    · exact absurd (hlocal.subset (by decide)) hdot
    · exact absurd (hloopback.subset (by decide)) hdot
    · exact absurd (hlinkLocal.subset (by decide)) hdot
    · exact Or.inr (Or.inr hlinkLocal)
  · rintro (hunspecified | hloopback | hlinkLocal)
    · rw [Ipv6Address.text_eq_unspecified_iff.mpr hunspecified]
      exact Or.inl (by decide)
    · rw [Ipv6Address.text_eq_loopback_iff.mpr hloopback]
      exact Or.inl (by decide)
    · exact Or.inr (Or.inr (Or.inr (Or.inr hlinkLocal)))

/-! ### The mapped addresses -/

/-- The text of a mapped address is read as the IPv4 address it stands for. -/
theorem mappedIpv4_mapped (y : Ipv4Address) :
    mappedIpv4 (String.ofList (Ipv6Address.mapped y).text) = some (String.ofList y.text) := by
  have hoctets : ∀ high low : Fin 256,
      ((high : ℕ) * 256 + low) / 256 = high ∧ ((high : ℕ) * 256 + low) % 256 = low := by
    intro high low
    omega
  have hembedded := Ipv6Address.embedded_mapped y
  have hsplit := (Ipv6Address.splitOn_text_mapped_iff (x := Ipv6Address.mapped y)).mpr
    ⟨by rw [hembedded]; rfl, rfl, rfl⟩
  have hhigh : ((Ipv6Address.mapped y).p₆ : ℕ) = y.a * 256 + y.b := rfl
  have hlow : ((Ipv6Address.mapped y).p₇ : ℕ) = y.c * 256 + y.d := rfl
  have hdigits : ∀ n : ℕ, toString n = String.ofList (Nat.toDigits 10 n) :=
    fun n => Nat.toString_eq_ofList_toDigits
  unfold mappedIpv4
  rw [String.toList_ofList, hsplit]
  show (hexGroup? (Nat.toDigits 16 (Ipv6Address.mapped y).p₆)).bind (fun high =>
    (hexGroup? (Nat.toDigits 16 (Ipv6Address.mapped y).p₇)).bind fun low =>
      some (toString (high / 256) ++ "." ++ toString (high % 256) ++ "." ++
        toString (low / 256) ++ "." ++ toString (low % 256))) = _
  rw [hexGroup?_toDigits (Fin.isLt _), hexGroup?_toDigits (Fin.isLt _)]
  show some _ = some _
  rw [hhigh, hlow, (hoctets y.a y.b).1, (hoctets y.a y.b).2, (hoctets y.c y.d).1,
    (hoctets y.c y.d).2, hdigits, hdigits, hdigits, hdigits]
  apply congrArg some
  apply String.toList_inj.mp
  simp [Ipv4Address.text]

theorem mappedIpv4_of_embedded_none {x : Ipv6Address} (h : x.embedded = none) :
    mappedIpv4 (String.ofList x.text) = none := by
  unfold mappedIpv4
  rw [String.toList_ofList]
  split
  · rename_i high low hsplit
    have hsome := (Ipv6Address.splitOn_text_mapped_iff.mp hsplit).1
    rw [h] at hsome
    exact absurd hsome (by decide)
  · rfl

theorem mappedIpv4_v4 (y : Ipv4Address) : mappedIpv4 (String.ofList y.text) = none := by
  have hcolon : ':' ∉ y.text := fun h => absurd (Ipv4Address.mem_text h) (by decide)
  unfold mappedIpv4
  rw [String.toList_ofList, List.splitOn_eq_singleton hcolon]
  split
  · rename_i hsplit
    exact absurd (congrArg List.length hsplit) (by simp)
  · rfl

/-! ## The two guards -/

/-- The text the comparisons are made on. -/
def comparedHostname (text : List Char) : String :=
  (mappedIpv4 (String.ofList text)).getD (String.ofList text)

theorem unsafeHostname_iff_isReserved (host : IpAddress) :
    UnsafeHostname (comparedHostname host.text) ↔ isReservedPeerAddress host = true := by
  unfold comparedHostname
  cases host with
  | v4 x =>
      show UnsafeHostname ((mappedIpv4 (String.ofList x.text)).getD _) ↔ _
      rw [mappedIpv4_v4, isReserved_v4]
      exact unsafeHostname_v4 x
  | v6 x =>
      show UnsafeHostname ((mappedIpv4 (String.ofList x.text)).getD (String.ofList x.text)) ↔ _
      cases hembedded : x.embedded with
      | some y =>
          obtain rfl := Ipv6Address.eq_mapped_of_embedded hembedded
          rw [mappedIpv4_mapped, isReserved_mapped]
          exact unsafeHostname_v4 y
      | none =>
          rw [mappedIpv4_of_embedded_none hembedded, isReserved_of_embedded_none hembedded]
          exact unsafeHostname_v6 x

theorem IpAddress.mem_text {host : IpAddress} {ch : Char} (h : ch ∈ host.text) :
    IsHexDigit ch ∨ ch = '.' ∨ ch = ':' := by
  cases host with
  | v4 x => exact (Ipv4Address.mem_text h).imp_right Or.inl
  | v6 x => exact (Ipv6Address.mem_text h).imp_right Or.inr

theorem toLower_of_isHexDigit {ch : Char} (h : IsHexDigit ch) : ch.toLower = ch := by
  have hall : "0123456789abcdef".toList.all fun ch => ch.toLower = ch := by decide
  exact of_decide_eq_true (List.all_eq_true.mp hall ch h)

/-- Lowercasing and stripping the brackets leaves the address's text. -/
theorem stripBrackets_hostname (host : IpAddress) :
    stripBrackets (host.hostname.toList.map Char.toLower) = host.text := by
  have hlower : host.text.map Char.toLower = host.text := by
    nth_rewrite 2 [← List.map_id host.text]
    apply List.map_congr_left
    intro ch hch
    rcases IpAddress.mem_text hch with hdigit | rfl | rfl
    · exact toLower_of_isHexDigit hdigit
    · rfl
    · rfl
  have hopen : '[' ∉ host.text := fun h => absurd (IpAddress.mem_text h) (by decide)
  have hclose : ']' ∉ host.text := fun h => absurd (IpAddress.mem_text h) (by decide)
  cases host with
  | v4 x =>
      have hhead : x.text.head? ≠ some '[' := fun h => hopen (List.mem_of_head? h)
      have hlast : x.text.getLast? ≠ some ']' := fun h => hclose (List.mem_of_getLast? h)
      show stripBrackets ((String.ofList x.text).toList.map Char.toLower) = x.text
      rw [String.toList_ofList, show x.text.map Char.toLower = x.text from hlower]
      unfold stripBrackets
      rw [if_neg hhead, if_neg hlast]
  | v6 x =>
      show stripBrackets ((String.ofList ('[' :: x.text ++ [']'])).toList.map Char.toLower) = x.text
      rw [String.toList_ofList, List.map_append, List.map_cons,
        show x.text.map Char.toLower = x.text from hlower]
      unfold stripBrackets
      show (if (x.text ++ [']']).getLast? = some ']' then (x.text ++ [']']).dropLast else _) = _
      rw [List.getLast?_concat, if_pos rfl, List.dropLast_concat]

/-- **An address literal is rejected exactly when it is reserved.** In an otherwise valid base
URL the textual guard and the block list agree on every address. -/
theorem address_guards_agree (host : IpAddress) (base : LiteralBaseUrl host) :
    validatePeerHttpBaseUrl base.url =
      if isReservedPeerAddress host then some "Peer address targets a reserved local endpoint"
      else none := by
  have hprotocol : ¬ (base.url.protocol ≠ "http:" ∧ base.url.protocol ≠ "https:") := by
    rintro ⟨hhttp, hhttps⟩
    exact base.protocol.elim hhttp hhttps
  unfold validatePeerHttpBaseUrl
  rw [if_neg hprotocol, if_neg (by simp [base.username, base.password]), base.hostname,
    stripBrackets_hostname]
  show (if UnsafeHostname (comparedHostname host.text) then _ else _) = _
  rw [if_neg (show ¬ (base.url.search ≠ "" ∨ base.url.hash ≠ "") by
    simp [base.search, base.hash])]
  exact if_congr (unsafeHostname_iff_isReserved host) rfl rfl

/-- `http://[::ffff:127.0.0.1]/`, as its host is serialized. -/
theorem address_guards_agree_mappedLoopback :
    validatePeerHttpBaseUrl ⟨"http:", "", "", "[::ffff:7f00:1]", "/", "", ""⟩ =
      some "Peer address targets a reserved local endpoint" := by
  have hreserved : isReservedPeerAddress (.v6 (.mapped ⟨127, 0, 0, 1⟩)) = true := by decide
  have hhostname : IpAddress.hostname (.v6 (.mapped ⟨127, 0, 0, 1⟩)) = "[::ffff:7f00:1]" := by
    decide +kernel
  have hagree := address_guards_agree (.v6 (.mapped ⟨127, 0, 0, 1⟩))
    ⟨⟨"http:", "", "", "[::ffff:7f00:1]", "/", "", ""⟩, Or.inl rfl, rfl, rfl, hhostname.symm, rfl,
      rfl⟩
  rwa [if_pos hreserved] at hagree

end OpenStreamGrid
