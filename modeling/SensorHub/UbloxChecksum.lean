import SensorHub.UbloxPacket

/-!
# Damage that the checksum notices

Both sums of the Fletcher algorithm are taken modulo 256.  A byte that was
replaced changes the first one by less than that, at whatever place it stands.
Two neighbours that were exchanged leave the first sum alone and change the
second by their difference, because the weights of neighbours differ by one.
The length that the header states is not needed for either.
-/

namespace SensorHub.Ublox

/-! ## Sums of two parts -/

theorem fletcherA_append (front rest : List UInt8) :
    fletcherA (front ++ rest) = fletcherA front + fletcherA rest := by
  simp [fletcherA]

/-- Bytes in front count once more for every byte behind them. -/
theorem fletcherB_append (front rest : List UInt8) :
    fletcherB (front ++ rest) =
      fletcherB front + rest.length * fletcherA front + fletcherB rest := by
  induction front with
  | nil => simp [fletcherB]
  | cons byte front ih =>
      rw [List.cons_append, fletcherB, ih, fletcherB, fletcherA_cons,
        List.length_append]
      ring

theorem byte_eq_of_modEq {first second : UInt8}
    (hmod : first.toNat ≡ second.toNat [MOD 256]) : first = second :=
  UInt8.toNat_inj.mp (hmod.eq_of_lt_of_lt first.toNat_lt second.toNat_lt)

theorem byte_eq_of_fletcherA {front rest : List UInt8} {byte other : UInt8}
    (hsum : fletcherA (front ++ other :: rest) ≡
      fletcherA (front ++ byte :: rest) [MOD 256]) : other = byte := by
  simp only [fletcherA_append, fletcherA_cons] at hsum
  exact byte_eq_of_modEq
    (Nat.ModEq.add_right_cancel' _ (Nat.ModEq.add_left_cancel' _ hsum))

theorem byte_eq_of_fletcherB {front rest : List UInt8} {first second : UInt8}
    (hsum : fletcherB (front ++ second :: first :: rest) ≡
      fletcherB (front ++ first :: second :: rest) [MOD 256]) :
    first = second := by
  have hpair : ∀ left right : UInt8,
      fletcherB (front ++ left :: right :: rest) =
        left.toNat +
          (fletcherB front + (rest.length + 2) * fletcherA front +
            (rest.length + 1) * (left.toNat + right.toNat) + fletcherB rest) := by
    intro left right
    rw [fletcherB_append, fletcherB, fletcherB]
    simp only [List.length_cons]
    ring
  rw [hpair, hpair, Nat.add_comm second.toNat first.toNat] at hsum
  exact (byte_eq_of_modEq (Nat.ModEq.add_right_cancel' _ hsum)).symm

/-! ## The check of a damaged packet -/

namespace DataPacket

/-- Data that passes the check under the checksum of another packet has the
same sums. -/
theorem sums_of_check {packet : DataPacket} {data : List UInt8}
    (hcheck : packet.check = true)
    (hdamaged : ({ packet with data := data } : DataPacket).check = true) :
    fletcherA data ≡ fletcherA packet.data [MOD 256] ∧
      fletcherB data ≡ fletcherB packet.data [MOD 256] := by
  simp only [check, Bool.and_eq_true, beq_iff_eq, calcChecksum_eq] at hcheck hdamaged
  have hsums := hdamaged.2.symm.trans hcheck.2
  constructor <;> change _ % 256 = _ % 256 <;> omega

/-- No packet that passes the check passes it after one byte was replaced or
two different neighbours were exchanged. -/
theorem check_damaged {packet : DataPacket} (hcheck : packet.check = true) :
    (∀ front byte rest, packet.data = front ++ byte :: rest →
      ∀ other, other ≠ byte →
        ({ packet with data := front ++ other :: rest } : DataPacket).check =
          false) ∧
    (∀ front first second rest,
      packet.data = front ++ first :: second :: rest → first ≠ second →
        ({ packet with data := front ++ second :: first :: rest } :
          DataPacket).check = false) := by
  constructor
  · intro front byte rest hdata other hother
    rw [← Bool.not_eq_true]
    intro hdamaged
    have hsum := (sums_of_check hcheck hdamaged).1
    rw [hdata] at hsum
    exact hother (byte_eq_of_fletcherA hsum)
  · intro front first second rest hdata hdifferent
    rw [← Bool.not_eq_true]
    intro hdamaged
    have hsum := (sums_of_check hcheck hdamaged).2
    rw [hdata] at hsum
    exact hdifferent (byte_eq_of_fletcherB hsum)

/-- A length byte is replaced, and a payload byte changes places with its
neighbour. -/
theorem check_damaged_twoBytes :
    let packet : DataPacket := ⟨[0x05, 0x01, 0x02, 0x00, 0x06, 0x08], 0x3F16⟩
    packet.check = true ∧
      ({ packet with data := [0x05, 0x01, 0x03, 0x00, 0x06, 0x08] } :
        DataPacket).check = false ∧
      ({ packet with data := [0x05, 0x01, 0x02, 0x00, 0x08, 0x06] } :
        DataPacket).check = false := by
  intro packet
  have hcheck : packet.check = true := by decide
  obtain ⟨hreplaced, hexchanged⟩ := check_damaged hcheck
  exact ⟨hcheck,
    hreplaced [0x05, 0x01] 0x02 [0x00, 0x06, 0x08] rfl 0x03 (by decide),
    hexchanged [0x05, 0x01, 0x02, 0x00] 0x06 0x08 [] rfl (by decide)⟩

end DataPacket

end SensorHub.Ublox
