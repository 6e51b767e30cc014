import GpibUtils.CSem.Decimal

/-!
# Internet addresses in C

An address is four bytes in network order; a word of the host holds them in the order of the host.
`inet_aton` reads one to four numbers, of which the last stands for all the bytes that are left;
`inet_ntoa` writes four, each for one byte.
-/

namespace CSem

/-- The bytes of a word the other way round. -/
def swapBytes (word : UInt32) : UInt32 :=
  (word &&& 0xff000000) >>> 24 ||| (word &&& 0x00ff0000) >>> 8 |||
    (word &&& 0x0000ff00) <<< 8 ||| (word &&& 0x000000ff) <<< 24

/-- The order of the bytes of a word. -/
inductive Endian where
  | little
  | big
  deriving DecidableEq

/-- `htonl` and `ntohl`: a word of the host in network order, and back. -/
def Endian.net : Endian → UInt32 → UInt32
  | little, word => swapBytes word
  | big, word => word

/-- The numbers of an address from one of them on, when so many more may follow: their value with
the first one in front. -/
def inetParts : Nat → List Char → Option Nat
  | spare, s =>
    if (s.head?.any Char.isDigit) = false then none
    else
      let (part, rest) := strtoul0 s
      match spare, rest with
      | spare + 1, '.' :: rest =>
        if 0xff < part.toNat then none
        else (inetParts spare rest).map (part.toNat * 256 ^ (spare + 1) + ·)
      | spare, rest =>
        if (rest.head?.any fun c => !isSpace c) ∨ 256 ^ (spare + 1) ≤ part.toNat then none
        else some part.toNat

/-- `inet_aton`: `s_addr`, or `none` when the string is no address. -/
def inetAton (host : Endian) (s : List Char) : Option UInt32 :=
  (inetParts 3 s).map fun address => host.net (UInt32.ofNat address)

/-- An address as text: its bytes as numbers, with dots between them. -/
def dotted (a b c d : UInt8) : List Char :=
  decimalText a.toNat ++ '.' :: (decimalText b.toNat ++ '.' ::
    (decimalText c.toNat ++ '.' :: decimalText d.toNat))

/-- `inet_ntoa` -/
def inetNtoa (host : Endian) (address : UInt32) : List Char :=
  let word := (host.net address).toNat
  dotted (.ofNat (word / 256 ^ 3)) (.ofNat (word / 256 ^ 2)) (.ofNat (word / 256)) (.ofNat word)

/-- The word of four bytes, the highest first. -/
def wordOf (a b c d : UInt8) : UInt32 :=
  .ofNat (a.toNat * 256 ^ 3 + (b.toNat * 256 ^ 2 + (c.toNat * 256 + d.toNat)))

/-- The value of a word, by its bytes. -/
theorem toNat_wordOf (a b c d : UInt8) :
    (wordOf a b c d).toNat =
      a.toNat * 256 ^ 3 + (b.toNat * 256 ^ 2 + (c.toNat * 256 + d.toNat)) := by
  have highest := a.toNat_lt
  have higher := b.toNat_lt
  have lower := c.toNat_lt
  have lowest := d.toNat_lt
  exact UInt32.toNat_ofNat_of_lt' (by change _ < 2 ^ 32; omega)

/-- A byte of a number, where it stands. -/
theorem and_byte (n k : Nat) : n &&& 255 <<< k = (n / 2 ^ k % 256) <<< k := by
  rw [← Nat.and_two_pow_sub_one_eq_mod _ 8, Nat.shiftLeft_and_distrib]
  apply Nat.eq_of_testBit_eq
  intro i
  rw [Nat.testBit_and, Nat.testBit_and, Nat.testBit_shiftLeft, Nat.testBit_shiftLeft,
    Nat.testBit_div_two_pow]
  by_cases low : k ≤ i
  · simp [low]
  · simp [low]

/-- Bytes side by side. -/
theorem or_bytes {a b c : Nat} (d : Nat) (ha : a < 256) (hb : b < 256) (hc : c < 256) :
    a ||| b <<< 8 ||| c <<< 16 ||| d <<< 24 =
      d * 256 ^ 3 + (c * 256 ^ 2 + (b * 256 + a)) := by
  have two : a ||| b <<< 8 = b <<< 8 + a := by
    rw [Nat.or_comm, Nat.shiftLeft_add_eq_or_of_lt (i := 8) ha]
  have three : b <<< 8 + a ||| c <<< 16 = c <<< 16 + (b <<< 8 + a) := by
    rw [Nat.or_comm, Nat.shiftLeft_add_eq_or_of_lt (i := 16) (by omega)]
  have four : c <<< 16 + (b <<< 8 + a) ||| d <<< 24 = d <<< 24 + (c <<< 16 + (b <<< 8 + a)) := by
    rw [Nat.or_comm, Nat.shiftLeft_add_eq_or_of_lt (i := 24) (by omega)]
  rw [two, three, four]
  omega

/-- The value of a word with its bytes the other way round. -/
theorem toNat_swapBytes (word : UInt32) :
    (swapBytes word).toNat =
      word.toNat % 256 * 256 ^ 3 + (word.toNat / 256 % 256 * 256 ^ 2 +
        (word.toNat / 256 ^ 2 % 256 * 256 + word.toNat / 256 ^ 3)) := by
  have bound := word.toNat_lt
  generalize same : word.toNat = n at bound ⊢
  have highest : (n &&& 255 <<< 24) >>> 24 = n / 256 ^ 3 := by
    rw [and_byte]
    omega
  have higher : (n &&& 255 <<< 16) >>> 8 = (n / 256 ^ 2 % 256) <<< 8 := by
    rw [and_byte]
    omega
  have lower : (n &&& 255 <<< 8) <<< 8 % 2 ^ 32 = (n / 256 % 256) <<< 16 := by
    rw [and_byte]
    omega
  have lowest : (n &&& 255 <<< 0) <<< 24 % 2 ^ 32 = (n % 256) <<< 24 := by
    rw [and_byte]
    omega
  have bytes : (swapBytes word).toNat =
      (n &&& 255 <<< 24) >>> 24 ||| (n &&& 255 <<< 16) >>> 8 |||
        (n &&& 255 <<< 8) <<< 8 % 2 ^ 32 ||| (n &&& 255 <<< 0) <<< 24 % 2 ^ 32 := by
    simp only [swapBytes, UInt32.toNat_or, UInt32.toNat_and, UInt32.toNat_shiftRight,
      UInt32.toNat_shiftLeft, same]
    rfl
  rw [bytes, highest, higher, lower, lowest]
  exact or_bytes _ (by omega) (by omega) (by omega)

/-- The word of the bytes the other way round. -/
theorem swapBytes_wordOf (a b c d : UInt8) : swapBytes (wordOf a b c d) = wordOf d c b a := by
  have highest := a.toNat_lt
  have higher := b.toNat_lt
  have lower := c.toNat_lt
  have lowest := d.toNat_lt
  apply UInt32.toNat_inj.mp
  rw [toNat_swapBytes, toNat_wordOf, toNat_wordOf]
  omega

/-- Network order and back. -/
theorem Endian.net_net_wordOf (host : Endian) (a b c d : UInt8) :
    host.net (host.net (wordOf a b c d)) = wordOf a b c d := by
  cases host with
  | little => rw [Endian.net, Endian.net, swapBytes_wordOf, swapBytes_wordOf]
  | big => rfl

/-- The bytes of an address are written in their order. -/
theorem inetNtoa_wordOf (host : Endian) (a b c d : UInt8) :
    inetNtoa host (host.net (wordOf a b c d)) = dotted a b c d := by
  have highest := a.toNat_lt
  have higher := b.toNat_lt
  have lower := c.toNat_lt
  have lowest := d.toNat_lt
  simp only [inetNtoa, Endian.net_net_wordOf, toNat_wordOf]
  congr 1 <;> apply UInt8.toNat_inj.mp <;> rw [UInt8.toNat_ofNat'] <;> omega

/-- A number of an address is read as it is printed, before a dot or at the end. -/
theorem strtoul0_part {n : Nat} {rest : List Char} (byte : n < 256)
    (ends : ∀ c ∈ rest.head?, c = '.') :
    strtoul0 (decimalText n ++ rest) = (UInt64.ofNat n, rest) := by
  apply strtoul0_decimalText (by omega)
  intro c front
  rw [ends c front]
  decide

/-- A number of an address that ends it. -/
theorem inetParts_last (d : UInt8) : inetParts 0 (decimalText d.toNat) = some d.toNat := by
  have byte := d.toNat_lt
  have read := @strtoul0_part d.toNat [] byte (by simp)
  have front := any_isDigit_decimalText d.toNat []
  rw [List.append_nil] at read front
  simp [inetParts, front, read, byte]

/-- A number of an address that others follow. -/
theorem inetParts_dot (spare : Nat) (a : UInt8) (rest : List Char) :
    inetParts (spare + 1) (decimalText a.toNat ++ '.' :: rest) =
      (inetParts spare rest).map (a.toNat * 256 ^ (spare + 1) + ·) := by
  have byte := a.toNat_lt
  have read := @strtoul0_part a.toNat ('.' :: rest) byte (by simp)
  have front := any_isDigit_decimalText a.toNat ('.' :: rest)
  have small : ¬0xff < a.toNat := by omega
  rw [inetParts, front]
  simp [read, small]

/-- An address is read as it is written. -/
theorem inetAton_dotted (host : Endian) (a b c d : UInt8) :
    inetAton host (dotted a b c d) = some (host.net (wordOf a b c d)) := by
  rw [inetAton, dotted, inetParts_dot, inetParts_dot, inetParts_dot, inetParts_last]
  rfl

end CSem
