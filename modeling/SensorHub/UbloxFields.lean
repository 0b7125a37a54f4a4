import SensorHub.UbloxStream

/-!
# Payload fields at their offsets

The grammar of a payload reads one field after the other.  Here each field is
read at its offset from the start of the payload, as the description of the
protocol lists them.  What a call pushes for a message is a function of the
message and the stamp alone.
-/

namespace SensorHub.Ublox

open X3

/-- A signed field of four bytes. -/
def signedAt (offset : ℕ) (payload : List UInt8) : ℤ :=
  toSigned 32 (littleAt 4 offset payload)

theorem littleSigned_drop {offset : ℕ} {payload : List UInt8}
    (henough : offset + 4 ≤ payload.length) (state : Unit) :
    littleSigned state (payload.drop offset) =
      (state, some (signedAt offset payload, payload.drop (offset + 4))) := by
  rw [littleSigned, bind_eq, bind_of_some (little_drop henough state)]
  rfl

/-! ## Parts of a navigation message -/

def TimeData.fieldsAt (offset : ℕ) (payload : List UInt8) : TimeData where
  itow := littleAt 4 offset payload
  year := littleAt 2 (offset + 4) payload
  month := (byteAt (offset + 6) payload).toNat
  day := (byteAt (offset + 7) payload).toNat
  hour := (byteAt (offset + 8) payload).toNat
  min := (byteAt (offset + 9) payload).toNat
  sec := (byteAt (offset + 10) payload).toNat
  valid := byteAt (offset + 11) payload
  tacc := littleAt 4 (offset + 12) payload
  nano := signedAt (offset + 16) payload

def PositionData.fieldsAt (offset : ℕ) (payload : List UInt8) : PositionData where
  lon := signedAt offset payload
  lat := signedAt (offset + 4) payload
  height := signedAt (offset + 8) payload
  hmsl := signedAt (offset + 12) payload
  hacc := littleAt 4 (offset + 16) payload
  vacc := littleAt 4 (offset + 20) payload

/-- Six bytes before the last field are reserved. -/
def VelocityData.fieldsAt (offset : ℕ) (payload : List UInt8) : VelocityData where
  veln := signedAt offset payload
  vele := signedAt (offset + 4) payload
  veld := signedAt (offset + 8) payload
  gspeed := signedAt (offset + 12) payload
  hmot := signedAt (offset + 16) payload
  sacc := littleAt 4 (offset + 20) payload
  headacc := littleAt 4 (offset + 24) payload
  pdop := littleAt 2 (offset + 28) payload
  headveh := signedAt (offset + 36) payload

theorem TimeData.getParseRule_drop {offset : ℕ} {payload : List UInt8}
    (henough : offset + 20 ≤ payload.length) (state : Unit) :
    TimeData.getParseRule state (payload.drop offset) =
      (state, some (TimeData.fieldsAt offset payload, payload.drop (offset + 20))) := by
  simp (disch := omega) only [TimeData.getParseRule, bind_eq, X3.bind, little_drop, byte_drop,
    littleSigned_drop, pure_apply, Nat.add_assoc, Nat.reduceAdd, TimeData.fieldsAt]

theorem PositionData.getParseRule_drop {offset : ℕ} {payload : List UInt8}
    (henough : offset + 24 ≤ payload.length) (state : Unit) :
    PositionData.getParseRule state (payload.drop offset) =
      (state, some (PositionData.fieldsAt offset payload, payload.drop (offset + 24))) := by
  simp (disch := omega) only [PositionData.getParseRule, bind_eq, X3.bind, little_drop,
    littleSigned_drop, pure_apply, Nat.add_assoc, Nat.reduceAdd, PositionData.fieldsAt]

theorem VelocityData.getParseRule_drop {offset : ℕ} {payload : List UInt8}
    (henough : offset + 40 ≤ payload.length) (state : Unit) :
    VelocityData.getParseRule state (payload.drop offset) =
      (state, some (VelocityData.fieldsAt offset payload, payload.drop (offset + 40))) := by
  simp (disch := omega) only [VelocityData.getParseRule, bind_eq, X3.bind, little_drop,
    littleSigned_drop, repeatN_byte_drop, pure_apply, Nat.add_assoc, Nat.reduceAdd,
    VelocityData.fieldsAt]

/-! ## Whole payloads -/

def PayloadPvt.fieldsAt (payload : List UInt8) : PayloadPvt where
  timeData := TimeData.fieldsAt 0 payload
  fixtype := byteAt 20 payload
  flags := byteAt 21 payload
  flags2 := byteAt 22 payload
  numsv := byteAt 23 payload
  positionData := PositionData.fieldsAt 24 payload
  velocityData := VelocityData.fieldsAt 48 payload
  magdec := toSigned 16 (littleAt 2 88 payload)
  magacc := littleAt 2 90 payload

def PayloadIns.fieldsAt (payload : List UInt8) : PayloadIns where
  bitfield0 := littleAt 4 0 payload
  reserved1 := littleAt 4 4 payload
  itow := littleAt 4 8 payload
  xangrate := signedAt 12 payload
  yangrate := signedAt 16 payload
  zangrate := signedAt 20 payload
  xaccel := signedAt 24 payload
  yaccel := signedAt 28 payload
  zaccel := signedAt 32 payload

theorem byteLit_self (value : UInt8) (state : Unit) (rest : List UInt8) :
    byteLit value state (value :: rest) = (state, some ((), rest)) := by
  rw [byteLit_cons, if_pos rfl]

/-- The length word of a message. -/
theorem littleLit_pair {length : ℕ} (low high : UInt8) (state : Unit) (rest : List UInt8)
    (hlength : low.toNat + 256 * high.toNat = length) :
    littleLit 2 length state (low :: high :: rest) = (state, some ((), rest)) := by
  have hlittle : little 2 state (low :: high :: rest) =
      (state, some (length, rest)) := by
    rw [little_of_enough (by simp), ← hlength, ← littleEndian_pair]
    rfl
  simp [littleLit, act, hlittle]

theorem PayloadPvt.getParseRule_fieldsAt {payload : List UInt8}
    (hlength : payload.length = 92) :
    PayloadPvt.getParseRule () (Command.clsNav :: Command.navPvt :: 92 :: 0 :: payload) =
      ((), some (PayloadPvt.fieldsAt payload, [])) := by
  have hend : payload.drop 92 = [] := List.drop_eq_nil_of_le hlength.le
  have hword : littleLit 2 92 () (92 :: 0 :: payload) = ((), some ((), payload.drop 0)) :=
    littleLit_pair 92 0 () payload rfl
  simp (disch := omega) only [PayloadPvt.getParseRule, bind_eq, X3.bind, byteLit_self, hword,
    TimeData.getParseRule_drop, byte_drop, PositionData.getParseRule_drop,
    VelocityData.getParseRule_drop, little_drop, pure_apply, Nat.reduceAdd,
    PayloadPvt.fieldsAt, hend]

theorem PayloadIns.getParseRule_fieldsAt {payload : List UInt8}
    (hlength : payload.length = 36) :
    PayloadIns.getParseRule () (Command.clsEsf :: Command.esfIns :: 36 :: 0 :: payload) =
      ((), some (PayloadIns.fieldsAt payload, [])) := by
  have hend : payload.drop 36 = [] := List.drop_eq_nil_of_le hlength.le
  have hword : littleLit 2 36 () (36 :: 0 :: payload) = ((), some ((), payload.drop 0)) :=
    littleLit_pair 36 0 () payload rfl
  simp (disch := omega) only [PayloadIns.getParseRule, bind_eq, X3.bind, byteLit_self, hword,
    littleSigned_drop, little_drop, pure_apply, Nat.reduceAdd, PayloadIns.fieldsAt, hend]

/-! ## What is pushed for a message -/

variable {K : Type} [ExactDouble K]

/-- A number in units of a power of ten below one. -/
def decimal (digits : ℕ) (number : ℤ) : K :=
  number / ((10 ^ digits : ℕ) : K)

def radians (degrees : K) : K :=
  degrees * (mPi / 180)

/-- What the visitor makes of the values of a payload. -/
def stamped (stamp : K) (values : List (StampedQuantity K)) : List (StampedQuantity K) :=
  values.map fun value => { value with stamp := value.stamp + stamp }

theorem stamped_nil (stamp : K) : stamped stamp [] = [] := rfl

theorem stamped_append (stamp : K) (first second : List (StampedQuantity K)) :
    stamped stamp (first ++ second) = stamped stamp first ++ stamped stamp second :=
  List.map_append

theorem stamped_unstamped_cons (stamp value : K) (quantity : Quantity)
    (values : List (StampedQuantity K)) :
    stamped stamp (unstamped value quantity :: values) =
      ⟨⟨value, stamp⟩, quantity⟩ :: stamped stamp values := by
  simp [stamped, unstamped]

/-- The values pushed for a message: none when the check fails, no grammar
matches or a time cannot be composed. -/
def Message.pushed (calendar : Calendar) (stamp : K) (message : Message) :
    List (StampedQuantity K) :=
  if message.checked then
    match (payloadParseRule () message.bytes).2 with
    | some (payload, _) => (payload.visit calendar stamp).getD []
    | none => []
  else
    []

/-- A message of that kind and payload length that passes the check. -/
structure Message.IsPacket (message : Message) (cls id : UInt8) (length : ℕ) : Prop where
  checked : message.checked = true
  cls_eq : message.cls = cls
  id_eq : message.id = id
  length_eq : message.payload.length = length

theorem Message.IsPacket.bytes_eq {message : Message} {cls id : UInt8} {length : ℕ}
    (hpacket : message.IsPacket cls id length) :
    message.bytes = cls :: id :: UInt8.ofNat (length % 2 ^ 8) ::
      UInt8.ofNat (length % 2 ^ 16 / 2 ^ 8) :: message.payload := by
  rw [Message.bytes, hpacket.cls_eq, hpacket.id_eq, hpacket.length_eq]

theorem pushed_of_navPvt {message : Message}
    (hpacket : message.IsPacket Command.clsNav Command.navPvt 92) (calendar : Calendar)
    (stamp : K) :
    message.pushed calendar stamp =
      ((Payload.pvt (PayloadPvt.fieldsAt message.payload)).visit calendar stamp).getD [] := by
  have hrule : payloadParseRule () message.bytes =
      ((), some (.pvt (PayloadPvt.fieldsAt message.payload), [])) := by
    have hpvt : PayloadPvt.getParseRule () message.bytes =
        ((), some (PayloadPvt.fieldsAt message.payload, [])) := by
      rw [hpacket.bytes_eq]
      exact PayloadPvt.getParseRule_fieldsAt hpacket.length_eq
    simp only [payloadParseRule, alt, navPvt, bind_eq, X3.bind, hpvt, pure_apply]
  rw [Message.pushed, if_pos hpacket.checked, hrule]

theorem pushed_of_esfIns {message : Message}
    (hpacket : message.IsPacket Command.clsEsf Command.esfIns 36) (calendar : Calendar)
    (stamp : K) :
    message.pushed calendar stamp =
      stamped stamp (PayloadIns.fieldsAt message.payload).getValues := by
  have hrule : payloadParseRule () message.bytes =
      ((), some (.ins (PayloadIns.fieldsAt message.payload), [])) := by
    have hins : PayloadIns.getParseRule () message.bytes =
        ((), some (PayloadIns.fieldsAt message.payload, [])) := by
      rw [hpacket.bytes_eq]
      exact PayloadIns.getParseRule_fieldsAt hpacket.length_eq
    -- the class byte is not that of the navigation messages
    have hother : byteLit (σ := Unit) Command.clsNav () message.bytes = ((), none) := by
      rw [hpacket.bytes_eq]
      rfl
    have hpvt : navPvt () message.bytes = ((), none) := by
      simp only [navPvt, PayloadPvt.getParseRule, bind_eq, X3.bind, hother]
    have hatt : navAtt () message.bytes = ((), none) := by
      simp only [navAtt, PayloadAtt.getParseRule, bind_eq, X3.bind, hother]
    simp only [payloadParseRule, alt, hpvt, hatt, esfIns, bind_eq, X3.bind, hins, pure_apply]
  rw [Message.pushed, if_pos hpacket.checked, hrule]
  rfl

namespace UbloxParser

theorem handlePacket_pushed (calendar : Calendar) (parser : UbloxParser K) (stamp : K)
    {packet : DataPacket} (hdata : packet.data = packet.message.bytes) :
    let result := parser.handlePacket calendar stamp packet
    result.1.pushed = packet.message.pushed calendar stamp ∧
      result.2.values = parser.values ++ result.1.pushed := by
  intro result
  unfold result handlePacket
  simp only [Message.pushed, ← hdata]
  by_cases hcheck : packet.check
  · have hchecked : packet.message.checked = true := hcheck
    simp only [if_pos hcheck, if_pos hchecked]
    cases (payloadParseRule () packet.data).2 with
    | none => simp
    | some parsed =>
        obtain ⟨payload, rest⟩ := parsed
        cases hvisit : payload.visit calendar stamp <;> simp [hvisit]
  · have hunchecked : ¬packet.message.checked = true := hcheck
    simp [if_neg hcheck, hunchecked]

theorem parsePasses_pushed (calendar : Calendar) (stamp : K) (passes : ℕ)
    {vars : PacketVars} (hfresh : vars.packet = .fresh) (parser : UbloxParser K) :
    let parsed := parsePasses calendar stamp passes vars parser
    (∀ handling ∈ parsed.handled,
        handling.pushed = handling.message.pushed calendar stamp) ∧
      parsed.parser.values = parser.values ++ parsed.handled.flatMap Handling.pushed := by
  induction passes generalizing vars parser with
  | zero => simp [parsePasses]
  | succ passes ih =>
      have hspec := packetRule_spec hfresh parser.buffer
      intro parsed
      simp only [parsed, parsePasses]
      split
      · simp
      · split
        · simp
        · next vars' _ rest hrule =>
            rw [hrule] at hspec
            cases hnext : nextMessage parser.buffer with
            | none =>
                rw [hnext] at hspec
                cases hspec
            | some found =>
                obtain ⟨message, tail⟩ := found
                rw [hnext] at hspec
                obtain ⟨filled, heq, hmessage, hdata⟩ := hspec
                simp only [Prod.mk.injEq, Option.some.injEq, true_and] at heq
                obtain ⟨rfl, rfl⟩ := heq
                rw [← hmessage] at hdata
                have hhandled := (handlePacket_spec calendar
                  { parser with buffer := rest } stamp hdata).1
                obtain ⟨hpushed, hvalues⟩ := handlePacket_pushed calendar
                  { parser with buffer := rest } stamp hdata
                rw [← hhandled] at hpushed
                split
                · obtain ⟨hmore, hmoreValues⟩ := ih
                    (show vars'.clear.packet = .fresh from DataPacket.clear_eq vars'.packet)
                    (({ parser with buffer := rest }).handlePacket calendar stamp
                      vars'.packet).2
                  refine ⟨List.forall_mem_cons.mpr ⟨hpushed, hmore⟩, ?_⟩
                  rw [hmoreValues, hvalues, List.flatMap_cons, List.append_assoc]
                · exact ⟨List.forall_mem_singleton.mpr hpushed, by simpa using hvalues⟩

/-- A call pushes for each message it handles what this message says, and
nothing else. -/
theorem parse_pushed (calendar : Calendar) (stamp : K) (parser : UbloxParser K) :
    (∀ handling ∈ (parser.parse calendar stamp).handled,
        handling.pushed = handling.message.pushed calendar stamp) ∧
      (parser.parse calendar stamp).parser.values =
        parser.values ++
          (parser.parse calendar stamp).handled.flatMap Handling.pushed :=
  parsePasses_pushed calendar stamp _ rfl parser

end UbloxParser

end SensorHub.Ublox
