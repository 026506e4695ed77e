import Mathlib.Data.List.Basic
import Mathlib.Data.List.TakeWhile
import Mathlib.Tactic.IntervalCases

/-!
# IP addresses

IPv4 and IPv6 addresses, their canonical texts, and block lists. A text writes an
IPv4 address as four decimal octets, and an IPv6 address as the hexadecimal
pieces between colons, the first longest run of at least two zero pieces
compressed to a double colon. A block list checks an address of one family
against the rules of the other through the IPv4-mapped IPv6 addresses.
-/

namespace OpenStreamGrid

instance neZero_octets : NeZero 256 := ⟨by decide⟩

instance neZero_pieces : NeZero 65536 := ⟨by decide⟩

structure Ipv4Address where
  (a b c d : Fin 256)
deriving DecidableEq

structure Ipv6Address where
  (p₀ p₁ p₂ p₃ p₄ p₅ p₆ p₇ : Fin 65536)
deriving DecidableEq

inductive IpAddress where
  | v4 (address : Ipv4Address)
  | v6 (address : Ipv6Address)
deriving DecidableEq

namespace Ipv4Address

def value (x : Ipv4Address) : ℕ := ((x.a * 256 + x.b) * 256 + x.c) * 256 + x.d

def text (x : Ipv4Address) : List Char :=
  Nat.toDigits 10 x.a ++ '.' :: (Nat.toDigits 10 x.b ++ '.' ::
    (Nat.toDigits 10 x.c ++ '.' :: Nat.toDigits 10 x.d))

end Ipv4Address

namespace Ipv6Address

def pieces (x : Ipv6Address) : List ℕ := [x.p₀, x.p₁, x.p₂, x.p₃, x.p₄, x.p₅, x.p₆, x.p₇]

def value (x : Ipv6Address) : ℕ := x.pieces.foldl (fun value piece => value * 65536 + piece) 0

/-- How many pieces are zero from one on. -/
def zeroRun (pieces : List ℕ) (i : ℕ) : ℕ := ((pieces.drop i).takeWhile (· = 0)).length

/-- Where the first longest run of at least two zero pieces starts. -/
def compressedPiece (pieces : List ℕ) : Option ℕ :=
  (List.range pieces.length).find? fun i =>
    decide (2 ≤ zeroRun pieces i ∧ ∀ j ∈ List.range pieces.length,
      zeroRun pieces j ≤ zeroRun pieces i)

def join (pieces : List ℕ) : List Char := [':'].intercalate (pieces.map (Nat.toDigits 16))

def text (x : Ipv6Address) : List Char :=
  match compressedPiece x.pieces with
  | none => join x.pieces
  | some i => join (x.pieces.take i) ++ ':' :: ':' :: join ((x.pieces.drop i).dropWhile (· = 0))

/-- The IPv6 address that stands for an IPv4 one. -/
def mapped (x : Ipv4Address) : Ipv6Address :=
  ⟨0, 0, 0, 0, 0, 65535, ⟨x.a * 256 + x.b, by omega⟩, ⟨x.c * 256 + x.d, by omega⟩⟩

/-- The IPv4 address that an IPv6 one stands for. -/
def embedded (x : Ipv6Address) : Option Ipv4Address :=
  if x.p₀ = 0 ∧ x.p₁ = 0 ∧ x.p₂ = 0 ∧ x.p₃ = 0 ∧ x.p₄ = 0 ∧ x.p₅ = 65535 then
    some ⟨⟨x.p₆ / 256, by omega⟩, ⟨x.p₆ % 256, by omega⟩, ⟨x.p₇ / 256, by omega⟩,
      ⟨x.p₇ % 256, by omega⟩⟩
  else none

theorem embedded_mapped (y : Ipv4Address) : (mapped y).embedded = some y := by
  obtain ⟨a, b, c, d⟩ := y
  unfold embedded
  rw [if_pos ⟨rfl, rfl, rfl, rfl, rfl, rfl⟩]
  simp only [mapped, Option.some.injEq, Ipv4Address.mk.injEq, Fin.ext_iff]
  omega

theorem eq_mapped_of_embedded {x : Ipv6Address} {y : Ipv4Address} (h : x.embedded = some y) :
    x = mapped y := by
  unfold embedded at h
  split_ifs at h with hzero
  obtain ⟨h₀, h₁, h₂, h₃, h₄, h₅⟩ := hzero
  obtain rfl := Option.some.inj h
  obtain ⟨p₀, p₁, p₂, p₃, p₄, p₅, p₆, p₇⟩ := x
  simp only at h₀ h₁ h₂ h₃ h₄ h₅
  subst h₀ h₁ h₂ h₃ h₄ h₅
  simp only [mapped, Ipv6Address.mk.injEq, Fin.ext_iff, true_and]
  omega

end Ipv6Address

/-! ## Block lists -/

/-- A subnet of one family; an address is the subnet of its full length. -/
inductive BlockRule where
  | v4 (network : Ipv4Address) (prefixLength : ℕ)
  | v6 (network : Ipv6Address) (prefixLength : ℕ)

/-- The leading bits of an address and a network agree. -/
def sameSubnet (width prefixLength value network : ℕ) : Bool :=
  value / 2 ^ (width - prefixLength) = network / 2 ^ (width - prefixLength)

namespace BlockRule

def Matches : BlockRule → IpAddress → Bool
  | .v4 network length, .v4 x => sameSubnet 32 length x.value network.value
  | .v6 network length, .v6 x => sameSubnet 128 length x.value network.value
  | .v6 network length, .v4 x => sameSubnet 128 length (Ipv6Address.mapped x).value network.value
  | .v4 network length, .v6 x =>
      x.embedded.any fun embedded => sameSubnet 32 length embedded.value network.value

end BlockRule

/-- `BlockList.check` -/
def blockListCheck (rules : List BlockRule) (x : IpAddress) : Bool :=
  rules.any fun rule => rule.Matches x

/-! ## The digits of a text -/

/-- A lowercase hexadecimal digit. -/
def IsHexDigit (c : Char) : Prop := c ∈ "0123456789abcdef".toList

instance (c : Char) : Decidable (IsHexDigit c) := inferInstanceAs (Decidable (_ ∈ _))

theorem isHexDigit_digitChar {n : ℕ} (h : n < 16) : IsHexDigit (Nat.digitChar n) := by
  revert h
  revert n
  decide

theorem isHexDigit_of_mem {b n : ℕ} (hb : 1 < b) (hb' : b ≤ 16) {c : Char} :
    c ∈ Nat.toDigits b n → IsHexDigit c := by
  induction n using Nat.strong_induction_on with
  | _ n ih =>
      rw [Nat.toDigits_eq_if hb]
      split_ifs with hn
      · intro hc
        rw [List.mem_singleton.mp hc]
        exact isHexDigit_digitChar (by omega)
      · intro hc
        rcases List.mem_append.mp hc with hc | hc
        · exact ih (n / b) (Nat.div_lt_self (by omega) hb) hc
        · rw [List.mem_singleton.mp hc]
          have hmod := Nat.mod_lt n (by omega : 0 < b)
          exact isHexDigit_digitChar (by omega)

theorem digitChar_inj {m n : ℕ} (hm : m < 16) (hn : n < 16) :
    Nat.digitChar m = Nat.digitChar n → m = n := by
  interval_cases m <;> interval_cases n <;> decide

/-- A number is read back from its digits. -/
theorem toDigits_inj {b : ℕ} (hb : 1 < b) (hb' : b ≤ 16) {m n : ℕ} :
    Nat.toDigits b m = Nat.toDigits b n → m = n := by
  induction m using Nat.strong_induction_on generalizing n with
  | _ m ih =>
      have hm := Nat.mod_lt m (by omega : 0 < b)
      have hn := Nat.mod_lt n (by omega : 0 < b)
      rw [Nat.toDigits_eq_if hb, Nat.toDigits_eq_if hb (n := n)]
      split_ifs with hsmall hsmall' hsmall'
      · intro h
        exact digitChar_inj (by omega) (by omega) (List.cons.inj h).1
      · intro h
        have hlength := congrArg List.length h
        simp at hlength
      · intro h
        have hlength := congrArg List.length h
        simp at hlength
      · intro h
        obtain ⟨hfront, hlast⟩ := List.append_inj' h rfl
        have hquotient := ih (m / b) (Nat.div_lt_self (by omega) hb) hfront
        have hdigit := digitChar_inj (by omega) (by omega) (List.cons.inj hlast).1
        rw [← Nat.div_add_mod m b, ← Nat.div_add_mod n b, hquotient, hdigit]

namespace Ipv4Address

theorem mem_text {x : Ipv4Address} {ch : Char} (h : ch ∈ x.text) : IsHexDigit ch ∨ ch = '.' := by
  have hdigit : ∀ n, ch ∈ Nat.toDigits 10 n → IsHexDigit ch :=
    fun n => isHexDigit_of_mem (by decide) (by decide)
  unfold text at h
  simp only [List.mem_append, List.mem_cons] at h
  rcases h with h | h | h | h | h | h | h
  · exact Or.inl (hdigit _ h)
  · exact Or.inr h
  · exact Or.inl (hdigit _ h)
  · exact Or.inr h
  · exact Or.inl (hdigit _ h)
  · exact Or.inr h
  · exact Or.inl (hdigit _ h)

theorem splitOn_text (x : Ipv4Address) : x.text.splitOn '.' =
    [Nat.toDigits 10 x.a, Nat.toDigits 10 x.b, Nat.toDigits 10 x.c, Nat.toDigits 10 x.d] := by
  have hdot : ∀ n, '.' ∉ Nat.toDigits 10 n :=
    fun n h => absurd (isHexDigit_of_mem (by decide) (by decide) h) (by decide)
  unfold text
  rw [List.splitOn_append_cons_self_of_not_mem (hdot _),
    List.splitOn_append_cons_self_of_not_mem (hdot _),
    List.splitOn_append_cons_self_of_not_mem (hdot _), List.splitOn_eq_singleton (hdot _)]

theorem octet_inj {x y : Fin 256} (h : Nat.toDigits 10 x = Nat.toDigits 10 y) : x = y :=
  Fin.ext (toDigits_inj (by decide) (by decide) h)

theorem text_inj {x y : Ipv4Address} (h : x.text = y.text) : x = y := by
  have hsplit := congrArg (List.splitOn '.') h
  rw [splitOn_text, splitOn_text] at hsplit
  simp only [List.cons.injEq, and_true] at hsplit
  obtain ⟨ha, hb, hc, hd⟩ := hsplit
  have hx : x = ⟨x.a, x.b, x.c, x.d⟩ := rfl
  rw [hx, octet_inj ha, octet_inj hb, octet_inj hc, octet_inj hd]

end Ipv4Address

namespace Ipv6Address

theorem join_cons (p : ℕ) (ps : List ℕ) : join (p :: ps) =
    Nat.toDigits 16 p ++ if ps = [] then [] else ':' :: join ps := by
  cases ps with
  | nil => simp [join]
  | cons q ps => simp [join]

theorem mem_join {ps : List ℕ} {ch : Char} : ch ∈ join ps → IsHexDigit ch ∨ ch = ':' := by
  induction ps with
  | nil => exact fun h => absurd h (by simp [join])
  | cons p ps ih =>
      intro h
      rw [join_cons] at h
      rcases List.mem_append.mp h with h | h
      · exact Or.inl (isHexDigit_of_mem (by decide) le_rfl h)
      · split_ifs at h
        · exact absurd h List.not_mem_nil
        · rcases List.mem_cons.mp h with rfl | h
          · exact Or.inr rfl
          · exact ih h

theorem mem_text {x : Ipv6Address} {ch : Char} (h : ch ∈ x.text) : IsHexDigit ch ∨ ch = ':' := by
  unfold text at h
  cases hrun : compressedPiece x.pieces with
  | none =>
      rw [hrun] at h
      exact mem_join h
  | some i =>
      rw [hrun] at h
      rcases List.mem_append.mp h with h | h
      · exact mem_join h
      · rcases List.mem_cons.mp h with rfl | h
        · exact Or.inr rfl
        · rcases List.mem_cons.mp h with rfl | h
          · exact Or.inr rfl
          · exact mem_join h

/-- What stands between the colons of one side. -/
def sideGroups (ps : List ℕ) : List (List Char) :=
  if ps = [] then [[]] else ps.map (Nat.toDigits 16)

theorem splitOn_join (ps : List ℕ) : (join ps).splitOn ':' = sideGroups ps := by
  unfold sideGroups
  split_ifs with hnil
  · subst hnil
    exact List.splitOn_nil ':'
  · apply List.splitOn_intercalate
    · intro group hgroup hcolon
      obtain ⟨p, -, rfl⟩ := List.mem_map.mp hgroup
      exact absurd (isHexDigit_of_mem (by decide) le_rfl hcolon) (by decide)
    · simpa using hnil

theorem splitOn_text (x : Ipv6Address) : x.text.splitOn ':' =
    match compressedPiece x.pieces with
    | none => sideGroups x.pieces
    | some i => sideGroups (x.pieces.take i) ++
        [] :: sideGroups ((x.pieces.drop i).dropWhile (· = 0)) := by
  unfold text
  cases compressedPiece x.pieces with
  | none => exact splitOn_join _
  | some i =>
      have hinner : (':' :: join ((x.pieces.drop i).dropWhile (· = 0))).splitOn ':'
          = [] :: (join ((x.pieces.drop i).dropWhile (· = 0))).splitOn ':' :=
        List.splitOn_append_cons_self_of_not_mem List.not_mem_nil _
      show (join (x.pieces.take i) ++ ':' :: ':' :: _).splitOn ':' = _
      rw [List.splitOn_append_cons_self, hinner, splitOn_join, splitOn_join]

example : Ipv6Address.text ⟨0x2001, 0xdb8, 0, 0, 1, 0, 0, 1⟩ = "2001:db8::1:0:0:1".toList := by
  decide

/-- A text that starts with a double colon starts with zero pieces. -/
theorem pieces_of_splitOn {x : Ipv6Address} {right : List (List Char)}
    (h : x.text.splitOn ':' = [] :: [] :: right) :
    ∃ n rest, x.pieces = List.replicate n 0 ++ rest ∧ right = sideGroups rest := by
  rw [splitOn_text] at h
  cases hrun : compressedPiece x.pieces with
  | none =>
      rw [hrun] at h
      have hhead := congrArg List.head? h
      exact absurd (Option.some.inj hhead) Nat.toDigits_ne_nil
  | some i =>
      rw [hrun] at h
      dsimp only at h
      cases htake : x.pieces.take i with
      | cons p ps =>
          rw [htake] at h
          have hhead := congrArg List.head? h
          exact absurd (Option.some.inj hhead) Nat.toDigits_ne_nil
      | nil =>
          rw [htake] at h
          have hright : sideGroups ((x.pieces.drop i).dropWhile (· = 0)) = right :=
            (List.cons.inj (List.cons.inj h).2).2
          have hdrop : x.pieces.drop i = x.pieces := by
            have hsplit := List.take_append_drop i x.pieces
            rwa [htake] at hsplit
          have hzeros : (x.pieces.drop i).takeWhile (· = 0)
              = List.replicate (zeroRun x.pieces i) 0 :=
            List.eq_replicate_of_mem fun p hp => by simpa using List.mem_takeWhile_imp hp
          refine ⟨zeroRun x.pieces i, _, ?_, hright.symm⟩
          rw [← hzeros, List.takeWhile_append_dropWhile, hdrop]

theorem sideGroups_eq_nil {ps : List ℕ} (h : sideGroups ps = [[]]) : ps = [] := by
  cases ps with
  | nil => rfl
  | cons p ps => exact absurd (List.cons.inj h).1 Nat.toDigits_ne_nil

/-- A side without an empty group is made of pieces. -/
theorem sideGroups_eq_cons {ps : List ℕ} {group : List Char} {groups : List (List Char)}
    (hgroup : group ≠ []) (h : sideGroups ps = group :: groups) :
    ps.map (Nat.toDigits 16) = group :: groups := by
  cases ps with
  | nil => exact absurd (List.cons.inj h).1.symm hgroup
  | cons p ps => exact h

theorem length_pieces (x : Ipv6Address) : x.pieces.length = 8 := rfl

/-- The first piece, as the text shows it. -/
theorem text_cases (x : Ipv6Address) :
    (∃ rest, x.text = Nat.toDigits 16 x.p₀ ++ ':' :: rest) ∨
      (x.p₀ = 0 ∧ ∃ rest, x.text = ':' :: rest) := by
  have hpieces : x.pieces = (x.p₀ : ℕ) :: x.pieces.tail := rfl
  unfold text
  cases hrun : compressedPiece x.pieces with
  | none =>
      refine Or.inl ⟨join x.pieces.tail, ?_⟩
      show join x.pieces = _
      rw [hpieces, join_cons]
      rfl
  | some i =>
      cases i with
      | zero =>
          refine Or.inr ⟨?_, _, rfl⟩
          have hfound := List.find?_some (p := fun i => decide (2 ≤ zeroRun x.pieces i ∧ _)) hrun
          obtain ⟨hlong, -⟩ := of_decide_eq_true hfound
          by_contra hne
          have hrunless : zeroRun x.pieces 0 = 0 := by
            unfold zeroRun
            rw [List.drop_zero, hpieces, List.takeWhile_cons_of_neg]
            · rfl
            · rw [decide_eq_true_eq]
              exact fun hzero => hne (Fin.ext hzero)
          omega
      | succ i =>
          refine Or.inl ?_
          show ∃ rest, join (x.pieces.take (i + 1)) ++ _ = _
          rw [hpieces, List.take_succ_cons, join_cons, List.append_assoc]
          split_ifs
          · exact ⟨_, rfl⟩
          · exact ⟨_, rfl⟩

theorem pieces_inj {x y : Ipv6Address} (h : x.pieces = y.pieces) : x = y := by
  obtain ⟨p₀, p₁, p₂, p₃, p₄, p₅, p₆, p₇⟩ := x
  obtain ⟨q₀, q₁, q₂, q₃, q₄, q₅, q₆, q₇⟩ := y
  simpa [pieces, Fin.val_inj] using h

/-- The zeros before `rest` fill up the eight pieces. -/
theorem pieces_eq_zeros {x : Ipv6Address} {n : ℕ} {rest : List ℕ}
    (h : x.pieces = List.replicate n 0 ++ rest) :
    x.pieces = List.replicate (8 - rest.length) 0 ++ rest := by
  have hlength := congrArg List.length h
  rw [length_pieces, List.length_append, List.length_replicate] at hlength
  have hn : n = 8 - rest.length := by omega
  rw [h, hn]

/-! ### The texts of some addresses -/

theorem text_eq_unspecified_iff {x : Ipv6Address} :
    x.text = "::".toList ↔ x = ⟨0, 0, 0, 0, 0, 0, 0, 0⟩ := by
  constructor
  · intro h
    have hsplit : x.text.splitOn ':' = [[], [], []] := by
      rw [h]
      rfl
    obtain ⟨n, rest, hpieces, hrest⟩ := pieces_of_splitOn hsplit
    obtain rfl := sideGroups_eq_nil hrest.symm
    exact pieces_inj (pieces_eq_zeros hpieces)
  · rintro rfl
    decide

theorem text_eq_loopback_iff {x : Ipv6Address} :
    x.text = "::1".toList ↔ x = ⟨0, 0, 0, 0, 0, 0, 0, 1⟩ := by
  constructor
  · intro h
    have hsplit : x.text.splitOn ':' = [[], [], ['1']] := by
      rw [h]
      rfl
    obtain ⟨n, rest, hpieces, hrest⟩ := pieces_of_splitOn hsplit
    have hone := sideGroups_eq_cons (by decide) hrest.symm
    obtain ⟨one, rfl⟩ := List.length_eq_one_iff.mp (by simpa using congrArg List.length hone)
    have h1 : one = 1 := toDigits_inj (by decide) le_rfl (List.cons.inj hone).1
    subst h1
    exact pieces_inj (pieces_eq_zeros hpieces)
  · rintro rfl
    decide

theorem zeroRun_le (ps : List ℕ) (i : ℕ) : zeroRun ps i ≤ ps.length - i := by
  unfold zeroRun
  rw [← List.length_drop]
  exact (List.takeWhile_sublist _).length_le

/-- The zeros of a mapped address are its longest run. -/
theorem compressedPiece_mapped (p q : ℕ) : compressedPiece [0, 0, 0, 0, 0, 65535, p, q] = some 0 := by
  have hfirst : zeroRun [0, 0, 0, 0, 0, 65535, p, q] 0 = 5 := rfl
  have hlongest : ∀ j ∈ List.range 8, zeroRun [0, 0, 0, 0, 0, 65535, p, q] j ≤ 5 := by
    intro j _
    rcases lt_or_ge j 3 with hsmall | hlarge
    · interval_cases j
      · exact hfirst.le
      · exact (show zeroRun [0, 0, 0, 0, 0, 65535, p, q] 1 = 4 from rfl).le.trans (by decide)
      · exact (show zeroRun [0, 0, 0, 0, 0, 65535, p, q] 2 = 3 from rfl).le.trans (by decide)
    · have hle := zeroRun_le [0, 0, 0, 0, 0, 65535, p, q] j
      simp only [List.length_cons, List.length_nil] at hle
      omega
  have hrange : List.range 8 = 0 :: [1, 2, 3, 4, 5, 6, 7] := by decide
  unfold compressedPiece
  show (List.range 8).find? _ = some 0
  rw [hrange, List.find?_cons_of_pos]
  apply decide_eq_true
  rw [hfirst]
  exact ⟨by decide, hlongest⟩

theorem hexadecimal_ffff : Nat.toDigits 16 65535 = "ffff".toList := by decide

/-- The texts of the form of a mapped address are those of mapped addresses. -/
theorem splitOn_text_mapped_iff {x : Ipv6Address} {high low : List Char} :
    x.text.splitOn ':' = [[], [], "ffff".toList, high, low] ↔
      x.embedded.isSome ∧ high = Nat.toDigits 16 x.p₆ ∧ low = Nat.toDigits 16 x.p₇ := by
  constructor
  · intro h
    obtain ⟨n, rest, hpieces, hrest⟩ := pieces_of_splitOn h
    have hgroups := sideGroups_eq_cons (by decide) hrest.symm
    obtain ⟨first, second, third, rfl⟩ := List.length_eq_three.mp (by
      simpa using congrArg List.length hgroups)
    simp only [List.map_cons, List.map_nil, List.cons.injEq, and_true] at hgroups
    obtain ⟨hfirst, rfl, rfl⟩ := hgroups
    obtain rfl : first = 65535 :=
      toDigits_inj (by decide) le_rfl (hfirst.trans hexadecimal_ffff.symm)
    have hzeros := pieces_eq_zeros hpieces
    simp only [pieces, List.length_cons, List.length_nil, List.replicate, List.cons_append,
      List.nil_append, List.cons.injEq, and_true] at hzeros
    obtain ⟨h₀, h₁, h₂, h₃, h₄, h₅, h₆, h₇⟩ := hzeros
    refine ⟨?_, by rw [h₆], by rw [h₇]⟩
    unfold embedded
    rw [if_pos ⟨Fin.ext h₀, Fin.ext h₁, Fin.ext h₂, Fin.ext h₃, Fin.ext h₄, Fin.ext h₅⟩]
    rfl
  · rintro ⟨hsome, rfl, rfl⟩
    obtain ⟨y, hy⟩ := Option.isSome_iff_exists.mp hsome
    have hpieces : x.pieces = [0, 0, 0, 0, 0, 65535, (x.p₆ : ℕ), (x.p₇ : ℕ)] := by
      rw [eq_mapped_of_embedded hy]
      rfl
    rw [splitOn_text, hpieces, compressedPiece_mapped]
    show [] :: [] :: Nat.toDigits 16 65535 :: _ = _
    rw [hexadecimal_ffff]
    rfl

end Ipv6Address

end OpenStreamGrid
