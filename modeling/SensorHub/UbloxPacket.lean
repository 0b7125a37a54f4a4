import Mathlib.Tactic

/-!
# The u-blox data packet

`Data_packet` keeps class, identifier, both length bytes and the payload of a
message in one vector of bytes, with the checksum beside it.  The checksum is
compared here with the two sums of the Fletcher algorithm, written down
directly: the sum of the bytes, and the sum in which a byte counts once for
every byte from itself to the end.
-/

namespace SensorHub.Ublox

structure DataPacket where
  data : List UInt8
  checksum : ℕ
  deriving DecidableEq, Repr

namespace DataPacket

def getDataByte (packet : DataPacket) (index : ℕ) : UInt8 :=
  packet.data.getD index 0

/-- Set a byte, after padding the data up to it with zeros. -/
def setDataByte (packet : DataPacket) (index : ℕ) (value : UInt8) :
    DataPacket :=
  let padding := List.replicate (index + 1 - packet.data.length) 0
  { packet with data := (packet.data ++ padding).set index value }

def getCls (packet : DataPacket) : UInt8 :=
  packet.getDataByte 0

def getId (packet : DataPacket) : UInt8 :=
  packet.getDataByte 1

def getLength (packet : DataPacket) : ℕ :=
  (packet.getDataByte 2).toNat + (packet.getDataByte 3).toNat * 2 ^ 8

def setCls (packet : DataPacket) (cls : UInt8) : DataPacket :=
  packet.setDataByte 0 cls

def setId (packet : DataPacket) (id : UInt8) : DataPacket :=
  packet.setDataByte 1 id

/-- The length is a 16 bit number. -/
def setLength (packet : DataPacket) (length : ℕ) : DataPacket :=
  (packet.setDataByte 2 (UInt8.ofNat (length % 2 ^ 8))).setDataByte 3
    (UInt8.ofNat (length % 2 ^ 16 / 2 ^ 8))

def addData (packet : DataPacket) (value : UInt8) : DataPacket :=
  { packet with data := packet.data ++ [value] }

def setChecksum (packet : DataPacket) (checksum : ℕ) : DataPacket :=
  { packet with checksum := checksum % 2 ^ 16 }

/-- The constructor without arguments. -/
def fresh : DataPacket :=
  (⟨[], 0⟩ : DataPacket).setLength 0

def clear (packet : DataPacket) : DataPacket :=
  ({ packet with data := [], checksum := 0 }).setLength 0

def calcLength (packet : DataPacket) : ℕ :=
  if packet.data.length > 3 then (packet.data.length - 4) % 2 ^ 16 else 0

/-- The two bytes `chk_a` and `chk_b` of the checksum. -/
def checksumBytes (data : List UInt8) : UInt8 × UInt8 :=
  data.foldl (fun chk byte => (chk.1 + byte, chk.2 + (chk.1 + byte))) (0, 0)

def calcChecksum (packet : DataPacket) : ℕ :=
  let chk := checksumBytes packet.data
  chk.2.toNat * 2 ^ 8 + chk.1.toNat

def check (packet : DataPacket) : Bool :=
  packet.getLength == packet.calcLength &&
    packet.checksum == packet.calcChecksum

def payload (packet : DataPacket) : List UInt8 :=
  packet.data.drop 4

end DataPacket

/-! ## The Fletcher sums -/

/-- The first sum. -/
def fletcherA (bytes : List UInt8) : ℕ :=
  (bytes.map UInt8.toNat).sum

/-- The second sum: the sum of all values of the first. -/
def fletcherB : List UInt8 → ℕ
  | [] => 0
  | byte :: bytes => (bytes.length + 1) * byte.toNat + fletcherB bytes

@[simp] theorem fletcherA_nil : fletcherA [] = 0 := rfl

@[simp] theorem fletcherA_cons (byte : UInt8) (bytes : List UInt8) :
    fletcherA (byte :: bytes) = byte.toNat + fletcherA bytes := rfl

theorem toNat_foldl_checksum (bytes : List UInt8) (a b : UInt8) :
    let chk := bytes.foldl
      (fun chk byte => (chk.1 + byte, chk.2 + (chk.1 + byte))) (a, b)
    chk.1.toNat = (a.toNat + fletcherA bytes) % 256 ∧
      chk.2.toNat =
        (b.toNat + bytes.length * a.toNat + fletcherB bytes) % 256 := by
  induction bytes generalizing a b with
  | nil =>
      simp [fletcherB, Nat.mod_eq_of_lt a.toNat_lt, Nat.mod_eq_of_lt b.toNat_lt]
  | cons byte bytes ih =>
      obtain ⟨hfirst, hsecond⟩ := ih (a + byte) (b + (a + byte))
      simp only [List.foldl_cons]
      refine ⟨?_, ?_⟩
      · rw [hfirst, UInt8.toNat_add, fletcherA_cons]
        omega
      · rw [hsecond, UInt8.toNat_add b, UInt8.toNat_add a]
        have hwrap :
            bytes.length * ((a.toNat + byte.toNat) % 2 ^ 8) ≡
              bytes.length * (a.toNat + byte.toNat) [MOD 256] :=
          (Nat.mod_modEq _ _).mul_left _
        have hstart :
            (b.toNat + (a.toNat + byte.toNat) % 2 ^ 8) % 2 ^ 8 ≡
              b.toNat + (a.toNat + byte.toNat) [MOD 256] :=
          (Nat.mod_modEq _ _).trans ((Nat.mod_modEq _ _).add_left _)
        have hsum := (hstart.add hwrap).add_right (fletcherB bytes)
        calc
          _ = (b.toNat + (a.toNat + byte.toNat) +
                bytes.length * (a.toNat + byte.toNat) +
                fletcherB bytes) % 256 := hsum
          _ = _ := by
            rw [fletcherB, List.length_cons]
            ring_nf

namespace DataPacket

theorem calcChecksum_eq (packet : DataPacket) :
    packet.calcChecksum =
      fletcherB packet.data % 256 * 2 ^ 8 + fletcherA packet.data % 256 := by
  obtain ⟨hfirst, hsecond⟩ := toNat_foldl_checksum packet.data 0 0
  simp only [UInt8.toNat_zero, Nat.zero_add, Nat.mul_zero] at hfirst hsecond
  simp only [calcChecksum, checksumBytes, hfirst, hsecond]

/-! ## A packet filled from its parts -/

theorem clear_eq (packet : DataPacket) : packet.clear = fresh := rfl

/-- The header of a cleared packet is overwritten field by field. -/
theorem header_eq (cls id : UInt8) (length : ℕ) :
    ((fresh.setCls cls).setId id).setLength length =
      ⟨[cls, id, UInt8.ofNat (length % 2 ^ 8),
        UInt8.ofNat (length % 2 ^ 16 / 2 ^ 8)], 0⟩ := rfl

theorem foldl_addData (bytes : List UInt8) (packet : DataPacket) :
    bytes.foldl addData packet =
      { packet with data := packet.data ++ bytes } := by
  induction bytes generalizing packet with
  | nil => simp
  | cons byte bytes ih =>
      rw [List.foldl_cons, ih]
      simp [addData]

/-- A packet whose payload is as long as its header says passes the check iff
its checksum is the pair of Fletcher sums. -/
theorem check_iff {cls id low high : UInt8} {payload data : List UInt8}
    (hdata : data = cls :: id :: low :: high :: payload)
    (hlength : payload.length = low.toNat + high.toNat * 2 ^ 8)
    (checksum : ℕ) :
    (⟨data, checksum⟩ : DataPacket).check = true ↔
      checksum = fletcherB data % 256 * 2 ^ 8 + fletcherA data % 256 := by
  have hlow := low.toNat_lt
  have hhigh := high.toNat_lt
  have hcalc :
      (⟨data, checksum⟩ : DataPacket).getLength =
        (⟨data, checksum⟩ : DataPacket).calcLength := by
    simp only [getLength, calcLength, getDataByte, hdata, List.length_cons,
      List.getD_cons_succ, List.getD_cons_zero, hlength]
    rw [if_pos (by omega)]
    omega
  simp only [check, hcalc, calcChecksum_eq, BEq.rfl, Bool.true_and,
    beq_iff_eq]

end DataPacket

end SensorHub.Ublox
