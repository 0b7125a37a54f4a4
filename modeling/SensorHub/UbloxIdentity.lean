import SensorHub.PortAnswers
import SensorHub.UbloxSetup

/-!
# Version and identifier of a NEO-M8U

Both requests subtract the offset of the data from the size of the response, as
numbers without sign.  A response that ends in front of its data makes this
difference huge, and the request reads behind the end of the response.  The
length arithmetic of `exec_command` decides whether that can happen: it awaits
the data, unless the length wraps around.
-/

namespace SensorHub.Ublox

open PortDevice

namespace Command

def sizeOffset : UInt8 := 4
def dataOffset : ℕ := 6

end Command

open Command

/-- `response.size() - data_offset` -/
def dataSize (response : List UInt8) : ℕ :=
  if dataOffset ≤ response.length then response.length - dataOffset
  else 2 ^ 64 + response.length - dataOffset

/-- Some bytes of a response, unless they are behind its end. -/
def bytesAt (response : List UInt8) (offset size : ℕ) : Option (List UInt8) :=
  if offset + size ≤ response.length then some ((response.drop offset).take size) else none

def primed : Primed := .two sizeOffset (sizeOffset + 1)

section Requests

variable (device : List UInt8 → Option (List (List UInt8)))

/-! ## The identifier -/

def minLen : ℕ := 9
def idOffset : ℕ := 4

/-- How the request ends, and the identifier of the device then.  Nobody knows the
identifier that is made of bytes behind the end of the response. -/
def requestId (id : String) : Ending × Option String :=
  match execCommand device secUniqidCommand Response.secUniqid Response.nak
      (some primed.bytes) with
  | none => (.threw, some id)
  | some result =>
      let response := result.data.getD []
      if result.success && decide (minLen ≤ dataSize response) then
        match bytesAt response (dataOffset + idOffset) 5 with
        | none => (.overran, none)
        | some bytes => (.returned result.success, some ("ublox_" ++ serialNo bytes))
      else (.returned result.success, some id)

/-! ## The version -/

def swLen : ℕ := 30
def hwLen : ℕ := 10
def extLen : ℕ := 30

/-- A text without the characters below `0x21` at its end, `char` being
signed. -/
def trimRight (text : List UInt8) : List UInt8 :=
  (text.reverse.dropWhile fun c => c.toInt8 < 0x21).reverse

/-- The texts from a position on, as long as there is more than one. -/
def extensions (response : List UInt8) (position len : ℕ) : Option (List (List UInt8)) :=
  if extLen < len then
    (bytesAt response position extLen).bind fun extension =>
      (extensions response (position + extLen) (len - extLen)).map (trimRight extension :: ·)
  else some []
termination_by len
decreasing_by
  simp only [extLen] at *
  omega

/-- The texts that are logged. -/
def versionTexts (response : List UInt8) : Option (List (List UInt8)) :=
  let len := dataSize response
  if swLen < len then
    (bytesAt response dataOffset swLen).bind fun swVersion =>
      if hwLen < len - swLen then
        (bytesAt response (dataOffset + swLen) hwLen).bind fun hwVersion =>
          (extensions response (dataOffset + swLen + hwLen) (len - swLen - hwLen)).map
            fun extensions => trimRight swVersion :: trimRight hwVersion :: extensions
      else some [trimRight swVersion]
  else some []

def requestVersion : Ending × List (List UInt8) :=
  match execCommand device monVerCommand Response.monVer Response.nak (some primed.bytes) with
  | none => (.threw, [])
  | some result =>
      if result.success then
        match versionTexts (result.data.getD []) with
        | none => (.overran, [])
        | some texts => (.returned true, texts)
      else (.returned false, [])

end Requests

/-! ## Reads within the response -/

theorem exists_bytesAt {response : List UInt8} {offset size : ℕ}
    (hsize : offset + size ≤ response.length) :
    ∃ bytes, bytesAt response offset size = some bytes :=
  ⟨_, if_pos hsize⟩

theorem exists_extensions {response : List UInt8} {position len : ℕ}
    (hlen : position + len ≤ response.length) :
    ∃ texts, extensions response position len = some texts := by
  induction position, len using extensions.induct with
  | case1 position len hlong ih =>
      obtain ⟨extension, hextension⟩ :=
        exists_bytesAt (show position + extLen ≤ response.length by omega)
      obtain ⟨later, hlater⟩ := ih (by omega)
      rw [extensions, if_pos hlong]
      simp [hextension, hlater]
  | case2 position len hshort =>
      rw [extensions, if_neg hshort]
      exact ⟨[], rfl⟩

/-- The version is read within a response that reaches its data. -/
theorem versionTexts_eq_none_iff (response : List UInt8) :
    versionTexts response = none ↔ response.length < dataOffset := by
  unfold versionTexts
  by_cases hdata : dataOffset ≤ response.length
  · have hsize : dataSize response = response.length - dataOffset := if_pos hdata
    simp only [show ¬response.length < dataOffset by omega, iff_false]
    split
    · next hsw =>
      obtain ⟨swVersion, hswVersion⟩ :=
        exists_bytesAt (show dataOffset + swLen ≤ response.length by omega)
      rw [hswVersion, Option.bind_some]
      split
      · next hhw =>
        obtain ⟨hwVersion, hhwVersion⟩ :=
          exists_bytesAt (show dataOffset + swLen + hwLen ≤ response.length by omega)
        obtain ⟨later, hlater⟩ := exists_extensions
          (show dataOffset + swLen + hwLen + (dataSize response - swLen - hwLen) ≤
            response.length by omega)
        simp [hhwVersion, hlater]
      · simp
    · simp
  · have hsize : dataSize response = 2 ^ 64 + response.length - dataOffset := if_neg hdata
    have hread : bytesAt response dataOffset swLen = none := if_neg (by omega)
    have hlong : swLen < dataSize response := by
      simp only [hsize, swLen, dataOffset]
      omega
    simp only [if_pos hlong, hread, Option.bind_none, true_iff]
    omega

/-- So is the identifier. -/
theorem bytesAt_id_eq_none_iff {response : List UInt8} (hlen : minLen ≤ dataSize response) :
    bytesAt response (dataOffset + idOffset) 5 = none ↔ response.length < dataOffset := by
  by_cases hdata : dataOffset ≤ response.length
  · rw [dataSize, if_pos hdata] at hlen
    simp only [minLen, dataOffset] at hlen hdata
    rw [bytesAt, if_pos (by simp only [dataOffset, idOffset]; omega)]
    simp [dataOffset, hdata]
  · rw [bytesAt, if_neg (by omega)]
    simpa using hdata

theorem minLen_le_dataSize {response : List UInt8} (hdata : response.length < dataOffset) :
    minLen ≤ dataSize response := by
  rw [dataSize, if_neg (by omega)]
  simp only [minLen, dataOffset] at hdata ⊢
  omega

/-! ## Responses without data -/

theorem primed_offsets : ∀ offset ∈ primed.bytes, offset ≠ 0xFF := by
  simp [primed, Primed.bytes, sizeOffset]

theorem declaredEnd_eq (received : List UInt8) (position : ℕ) :
    primed.declaredEnd received position =
      position + dataOffset + primed.declared (received.drop position) :=
  rfl

/-- A read is the first with the response in it and has no data of it. -/
def Bare (expectedResponse before received : List UInt8) : Prop :=
  ¬expectedResponse <:+: before ∧ ¬Response.nak <:+: before ++ received ∧
    ∃ position, FirstAt expectedResponse (before ++ received) position ∧
      (before ++ received).length < position + dataOffset ∧
      2 ^ 16 ≤ primed.declaredEnd (before ++ received) position

/-- One of the reads is bare and the end of the data is more than a length of 16
bits can say. -/
def Overruns (expectedResponse before : List UInt8) : List (List UInt8) → Prop
  | [] => False
  | received :: reads =>
      Bare expectedResponse before received ∨
        Overruns expectedResponse (before ++ received) reads

theorem not_overruns_of_isInfix {expectedResponse before : List UInt8}
    (hfound : expectedResponse <:+: before) (reads : List (List UInt8)) :
    ¬Overruns expectedResponse before reads := by
  induction reads generalizing before with
  | nil => exact not_false
  | cons received reads ih =>
      rintro (hbare | hlater)
      · exact hbare.1 hfound
      · exact ih (hfound.trans (List.prefix_append _ _).isInfix) hlater

theorem not_overruns_of_nak {expectedResponse before : List UInt8}
    (herror : Response.nak <:+: before) (reads : List (List UInt8)) :
    ¬Overruns expectedResponse before reads := by
  induction reads generalizing before with
  | nil => exact not_false
  | cons received reads ih =>
      have herror' := herror.trans (List.prefix_append before received).isInfix
      rintro (hbare | hlater)
      · exact hbare.2.1 herror'
      · exact ih herror' hlater

/-- A response that is waited for has the bytes that are awaited. -/
theorem expectedLen_le_of_waiting {expectedResponse data : List UInt8} {vars : CommandVars}
    {reads : List (List UInt8)} {position : ℕ} (hexpected : expectedResponse ≠ [])
    (hdata : vars.data = some []) (hfirst : FirstAt expectedResponse vars.response position)
    (hresult : execLoop expectedResponse Response.nak vars reads = ⟨true, some data⟩) :
    vars.response.length ≤ position + data.length ∧
      vars.expectedLen ≤ position + data.length := by
  induction reads generalizing vars with
  | nil => simp [execLoop] at hresult
  | cons received reads ih =>
      have hfirst' := hfirst.append hexpected received
      have hposition := hfirst'.le_length hexpected
      by_cases herror : Response.nak <:+: vars.response ++ received
      · rw [execLoop_of_error vars herror] at hresult
        exact absurd (congrArg CommandResult.success hresult) Bool.false_ne_true
      have hstep := @execLoop_of_waiting _ _ _ reads position vars hdata herror hfirst'
      simp only at hstep
      rw [hstep] at hresult
      have hlength : (vars.response ++ received).length =
          vars.response.length + received.length := List.length_append
      split at hresult
      · next hlen =>
        obtain rfl : (vars.response ++ received).drop position = data :=
          Option.some.inj (congrArg CommandResult.data hresult)
        rw [List.length_drop]
        omega
      · obtain ⟨hresponse, hlen⟩ :=
          @ih ⟨vars.response ++ received, some [], vars.expectedLen⟩ rfl hfirst' hresult
        exact ⟨by simp only at hresponse; omega, hlen⟩

/-- Missing bytes of the length count as zero. -/
theorem declared_of_short {data : List UInt8} (hshort : data.length < dataOffset) :
    primed.declared data < 2 ^ 8 ∧ (data.length < 5 → primed.declared data = 0) := by
  have hlow := (data.getD 4 0).toNat_lt
  have hhigh : data.getD 5 0 = 0 := by
    rw [List.getD_eq_getElem?_getD, List.getElem?_eq_none (Nat.le_of_lt_succ hshort)]
    rfl
  have hdeclared : primed.declared data = (data.getD 4 0).toNat := by
    have hbytes : primed.declared data =
        (data.getD 4 0).toNat + (data.getD 5 0).toNat * 2 ^ 8 := rfl
    rw [hbytes, hhigh]
    rfl
  rw [hdeclared]
  refine ⟨hlow, ?_⟩
  intro hnone
  rw [List.getD_eq_getElem?_getD, List.getElem?_eq_none (by omega)]
  rfl

/-- A response ends in front of its data exactly if the length wraps around. -/
theorem short_iff_overruns {expectedResponse : List UInt8} (hsize : expectedResponse.length = 4)
    {before : List UInt8} (reads : List (List UInt8)) {expectedLen : ℕ}
    (hbefore : ¬expectedResponse <:+: before) :
    (∃ data, execLoop expectedResponse Response.nak ⟨before, some primed.bytes, expectedLen⟩ reads =
        ⟨true, some data⟩ ∧ data.length < dataOffset) ↔
      Overruns expectedResponse before reads := by
  have hexpected : expectedResponse ≠ [] := by
    intro hnil
    simp [hnil] at hsize
  induction reads generalizing before with
  | nil => simp [execLoop, Overruns]
  | cons received reads ih =>
      rw [Overruns]
      by_cases herror : Response.nak <:+: before ++ received
      · rw [execLoop_of_error _ herror]
        have hbare : ¬Bare expectedResponse before received := fun hbare => hbare.2.1 herror
        simp [hbare, not_overruns_of_nak herror]
      by_cases hfound : expectedResponse <:+: before ++ received
      · obtain ⟨position, hfirst⟩ := exists_firstAt hfound
        have hend := end_le_length hexpected hfirst.1
        have hlater := not_overruns_of_isInfix hfound reads
        have hstep := @execLoop_of_found _ _ _ reads position
          ⟨before, some primed.bytes, expectedLen⟩ primed primed_offsets rfl herror hfirst
        simp only at hstep
        rw [hstep, or_iff_left hlater]
        have hawaited : primed.awaited (before ++ received) position =
            primed.declaredEnd (before ++ received) position % 2 ^ 16 := rfl
        have hdeclared := declaredEnd_eq (before ++ received) position
        have hshort := @declared_of_short ((before ++ received).drop position)
        rw [List.length_drop] at hshort
        simp only [dataOffset] at hdeclared hshort
        constructor
        · rintro ⟨data, hresult, hdata⟩
          refine ⟨hbefore, herror, position, hfirst, ?_⟩
          simp only [dataOffset] at hdata ⊢
          split at hresult
          · next hlen =>
            obtain rfl : (before ++ received).drop position = data :=
              Option.some.inj (congrArg CommandResult.data hresult)
            rw [List.length_drop] at hdata
            omega
          · next hlen =>
            -- the data is awaited, and what is awaited ends behind it
            obtain ⟨-, hresponse⟩ := expectedLen_le_of_waiting hexpected rfl hfirst hresult
            simp only at hresponse
            omega
        · rintro ⟨-, -, position', hfirst', hbare, hwraps⟩
          obtain rfl := hfirst'.unique hfirst
          simp only [dataOffset] at hbare
          rw [if_pos (by omega)]
          refine ⟨_, rfl, ?_⟩
          rw [List.length_drop, dataOffset]
          omega
      · have hbare : ¬Bare expectedResponse before received := by
          rintro ⟨-, -, position, hfirst, -⟩
          exact hfound hfirst.isInfix
        rw [execLoop_of_missing _ herror hfound, or_iff_right hbare]
        exact ih hfound

/-- That takes nearly as many bytes as 16 bits can count. -/
theorem length_of_overruns {expectedResponse before : List UInt8} {reads : List (List UInt8)}
    (hsize : expectedResponse.length = 4) (hoverruns : Overruns expectedResponse before reads) :
    2 ^ 16 ≤ (before ++ reads.flatten).length + 257 := by
  induction reads generalizing before with
  | nil => exact absurd hoverruns not_false
  | cons received reads ih =>
      rw [List.flatten_cons, ← List.append_assoc]
      rcases hoverruns with ⟨-, -, position, hfirst, hbare, hwraps⟩ | hlater
      · have hend := end_le_length (by intro hnil; simp [hnil] at hsize) hfirst.1
        have hdeclared := declaredEnd_eq (before ++ received) position
        have hshort := @declared_of_short ((before ++ received).drop position)
        rw [List.length_drop] at hshort
        simp only [dataOffset] at hdeclared hshort hbare
        rw [List.length_append]
        omega
      · exact ih hlater

section Requests

variable (device : List UInt8 → Option (List (List UInt8)))

theorem exists_result (expectedResponse : List UInt8) (expectedLen : ℕ)
    (reads : List (List UInt8)) :
    ∃ success data, execLoop expectedResponse Response.nak ⟨[], some primed.bytes, expectedLen⟩
      reads = ⟨success, some data⟩ := by
  obtain ⟨data, hdata⟩ := Option.ne_none_iff_exists'.mp
    (@execLoop_data expectedResponse Response.nak ⟨[], some primed.bytes, expectedLen⟩ reads
      (by simp))
  exact ⟨_, data, by rw [← hdata]⟩

/-- The identifier is read from the response if this is long enough. -/
theorem requestId_eq (id : String) {reads : List (List UInt8)} {success : Bool}
    {data : List UInt8} (hanswers : device secUniqidCommand = some reads)
    (hresult : execLoop Response.secUniqid Response.nak ⟨[], some primed.bytes, 4⟩ reads =
      ⟨success, some data⟩) :
    requestId device id =
      if success = true ∧ minLen ≤ dataSize data then
        match bytesAt data (dataOffset + idOffset) 5 with
        | none => (.overran, none)
        | some bytes => (.returned true, some ("ublox_" ++ serialNo bytes))
      else (.returned success, some id) := by
  have hexec : execCommand device secUniqidCommand Response.secUniqid Response.nak
      (some primed.bytes) = some ⟨success, some data⟩ := by
    rw [execCommand, hanswers, Option.map_some]
    exact congrArg some hresult
  simp only [requestId, hexec, Option.getD_some, Bool.and_eq_true, decide_eq_true_eq]
  split
  · next hlong => rw [hlong.1]
  · rfl

/-- The requests read behind the end of a response exactly if the head of their
answer comes without its data and behind too many other bytes.  That takes nearly
as many bytes as 16 bits can count. -/
theorem requests_overrun_iff (id : String) {idReads versionReads : List (List UInt8)}
    (hid : device secUniqidCommand = some idReads)
    (hversion : device monVerCommand = some versionReads) :
    ((requestId device id).1 = .overran ↔ Overruns Response.secUniqid [] idReads) ∧
      ((requestVersion device).1 = .overran ↔ Overruns Response.monVer [] versionReads) ∧
      (idReads.flatten.length < 2 ^ 16 - 257 → (requestId device id).1 ≠ .overran) ∧
      (versionReads.flatten.length < 2 ^ 16 - 257 → (requestVersion device).1 ≠ .overran) := by
  have hidIff : (requestId device id).1 = .overran ↔ Overruns Response.secUniqid [] idReads := by
    rw [← @short_iff_overruns _ rfl _ idReads 4 (show ¬Response.secUniqid <:+: [] by decide)]
    obtain ⟨success, data, hresult⟩ := exists_result Response.secUniqid 4 idReads
    rw [requestId_eq device id hid hresult, hresult]
    cases success with
    | false => simp
    | true =>
        by_cases hlong : minLen ≤ dataSize data
        · have hread := bytesAt_id_eq_none_iff hlong
          cases hbytes : bytesAt data (dataOffset + idOffset) 5 with
          | none => simpa [hlong] using hread.mp hbytes
          | some bytes =>
              simp only [hbytes, reduceCtorEq, false_iff] at hread
              simp [hlong, hread]
        · have hdata := mt minLen_le_dataSize hlong
          simp [hlong, hdata]
  have hversionIff : (requestVersion device).1 = .overran ↔
      Overruns Response.monVer [] versionReads := by
    rw [← @short_iff_overruns _ rfl _ versionReads 4 (show ¬Response.monVer <:+: [] by decide)]
    obtain ⟨success, data, hresult⟩ := exists_result Response.monVer 4 versionReads
    have hexec : execCommand device monVerCommand Response.monVer Response.nak
        (some primed.bytes) = some ⟨success, some data⟩ := by
      rw [execCommand, hversion, Option.map_some]
      exact congrArg some hresult
    have hread := versionTexts_eq_none_iff data
    simp only [requestVersion, hexec, Option.getD_some, hresult]
    cases success with
    | false => simp
    | true =>
        cases htexts : versionTexts data with
        | none => simpa using hread.mp htexts
        | some texts =>
            simp only [htexts, reduceCtorEq, false_iff] at hread
            simp [hread]
  refine ⟨hidIff, hversionIff, ?_, ?_⟩
  · intro hfew hoverran
    have hmany := length_of_overruns rfl (hidIff.mp hoverran)
    rw [List.nil_append] at hmany
    omega
  · intro hfew hoverran
    have hmany := length_of_overruns rfl (hversionIff.mp hoverran)
    rw [List.nil_append] at hmany
    omega

/-- The identifier of a receiver whose answer has this payload. -/
def trueIdentifier (payload : List UInt8) : String :=
  "ublox_" ++ serialNo ((payload.drop idOffset).take 5)

theorem packet_split (payload tail : List UInt8) :
    ∃ chk, packetBytes clsSec Command.secUniqid payload ++ tail =
      Response.secUniqid ++ [UInt8.ofNat (payload.length % 2 ^ 8),
        UInt8.ofNat (payload.length % 2 ^ 16 / 2 ^ 8)] ++ payload ++ (chk ++ tail) := by
  refine ⟨[UInt8.ofNat ((DataPacket.ofPayload clsSec Command.secUniqid payload).checksum % 2 ^ 8),
    UInt8.ofNat ((DataPacket.ofPayload clsSec Command.secUniqid payload).checksum / 2 ^ 8)], ?_⟩
  simp [packetBytes, DataPacket.getPacket, DataPacket.data_ofPayload, Response.secUniqid]

/-- The serial number is read from a response that is long enough. -/
theorem bytesAt_of_begins {response payload tail : List UInt8} (hpayload : minLen ≤ payload.length)
    (hbegins : response <+: packetBytes clsSec Command.secUniqid payload ++ tail)
    (hlong : dataOffset + minLen ≤ response.length) :
    bytesAt response (dataOffset + idOffset) 5 = some ((payload.drop idOffset).take 5) := by
  simp only [minLen, dataOffset] at hpayload hlong
  obtain ⟨cut, hcut⟩ := hbegins
  obtain ⟨chk, hpacket⟩ := packet_split payload tail
  rw [bytesAt, if_pos (by simp only [dataOffset, idOffset]; omega)]
  have hdrop : response.drop 10 ++ cut = payload.drop 4 ++ (chk ++ tail) := by
    rw [← List.drop_append_of_le_length (by omega), hcut, hpacket,
      ← List.drop_append_of_le_length (by omega)]
    rfl
  have htake := congrArg (List.take 5) hdrop
  rw [List.take_append_of_le_length (by rw [List.length_drop]; omega),
    List.take_append_of_le_length (by rw [List.length_drop]; omega)] at htake
  exact congrArg some htake

section Identifier

variable {reads : List (List UInt8)} {payload tail : List UInt8} {position : ℕ}

/-- Without an overrun the identifier is that of the answer or the old one. -/
theorem requestId_of_not_overruns (id : String)
    (hanswers : device secUniqidCommand = some reads) (hpayload : minLen ≤ payload.length)
    (hfirst : FirstAt Response.secUniqid reads.flatten position)
    (hanswer : reads.flatten.drop position =
      packetBytes clsSec Command.secUniqid payload ++ tail)
    (hwithin : ¬Overruns Response.secUniqid [] reads) :
    requestId device id = (.returned true, some (trueIdentifier payload)) ∨
      (requestId device id).2 = some id := by
  obtain ⟨success, data, hresult⟩ := exists_result Response.secUniqid 4 reads
  rw [requestId_eq device id hanswers hresult]
  split
  · next hlong =>
    obtain ⟨rfl, hlen⟩ := hlong
    have hbegins : data <+: packetBytes clsSec Command.secUniqid payload ++ tail := by
      rw [← hanswer]
      exact response_begins (by simp [Response.secUniqid]) hfirst hresult
    have hdata : dataOffset ≤ data.length := by
      by_contra hshort
      exact hwithin ((@short_iff_overruns _ rfl _ reads 4 (by decide)).mp
        ⟨data, hresult, by omega⟩)
    rw [dataSize, if_pos hdata] at hlen
    rw [bytesAt_of_begins hpayload hbegins (by omega)]
    exact Or.inl rfl
  · exact Or.inr rfl

/-- An answer that ends with a read gives its identifier. -/
theorem requestId_of_whole (id : String) {quiet later : List (List UInt8)} {chunk : List UInt8}
    (hanswers : device secUniqidCommand = some (quiet ++ [chunk] ++ later))
    (hpayload : minLen ≤ payload.length) (hsize : payload.length < 2 ^ 16)
    (hfirst : FirstAt Response.secUniqid (quiet ++ [chunk] ++ later).flatten position)
    (hanswer : (quiet ++ [chunk] ++ later).flatten.drop position =
      packetBytes clsSec Command.secUniqid payload ++ tail)
    (hquiet : ¬Response.secUniqid <:+: quiet.flatten)
    (herror : ¬Response.nak <:+: (quiet ++ [chunk]).flatten)
    (hwhole : position + dataOffset + payload.length ≤ (quiet ++ [chunk]).flatten.length) :
    requestId device id = (.returned true, some (trueIdentifier payload)) := by
  rw [@List.flatten_append _ _ later] at hfirst hanswer
  set received := (quiet ++ [chunk]).flatten with hreceived
  have hpart : received.drop position <+:
      packetBytes clsSec Command.secUniqid payload ++ tail := by
    rw [← hanswer, List.drop_append_of_le_length (by omega)]
    exact List.prefix_append _ _
  simp only [minLen, dataOffset] at hpayload hwhole
  have hfound : FirstAt Response.secUniqid received position := by
    have hheadLength : Response.secUniqid.length = 4 := rfl
    apply firstAt_of_append hfirst
    omega
  have hdeclared : primed.declared (received.drop position) = payload.length := by
    obtain ⟨cut, hcut⟩ := hpart
    obtain ⟨chk, hpacket⟩ := packet_split payload tail
    have hlast : primed.last < (received.drop position).length := by
      have hfive : primed.last = 5 := rfl
      rw [hfive, List.length_drop]
      omega
    rw [← Primed.declared_append hlast cut, hcut, hpacket]
    refine Eq.trans ?_ (DataPacket.length_eq_lengthBytes hsize).symm
    exact congrArg _ (Nat.mul_comm _ _)
  have hawaited : primed.awaited received position ≤ received.length := by
    have hbytes : primed.awaited received position =
        (position + 6 + primed.declared (received.drop position)) % 2 ^ 16 :=
      rfl
    omega
  have hread := @execLoop_whole _ _ primed quiet later chunk 4 position primed_offsets
    hquiet herror hfound hawaited
  have hlong : dataOffset + minLen ≤ (received.drop position).length := by
    simp only [List.length_drop, dataOffset, minLen]
    omega
  have hdataSize : minLen ≤ dataSize (received.drop position) := by
    rw [dataSize, if_pos (by omega)]
    omega
  rw [requestId_eq device id hanswers hread, if_pos ⟨rfl, hdataSize⟩,
    bytesAt_of_begins hpayload hpart hlong]
  rfl

theorem trueIdentifier_injective {other : List UInt8}
    (hother : trueIdentifier other = trueIdentifier payload) :
    (other.drop idOffset).take 5 = (payload.drop idOffset).take 5 := by
  apply serialNo_injective
  have hchars := congrArg String.toList hother
  rw [trueIdentifier, trueIdentifier, String.toList_append, String.toList_append] at hchars
  exact String.toList_inj.mp (List.append_cancel_left hchars)

end Identifier

/-- However the answer of a receiver is cut into reads, the device gets its
identifier or keeps the one it had, unless bytes behind the end of the answer are
read; an answer that ends with a read and has not begun before gives the
identifier.  Receivers with different unique identifiers get different ones. -/
theorem requestId_identifies (id : String) {reads : List (List UInt8)}
    {payload tail : List UInt8} {position : ℕ}
    (hanswers : device secUniqidCommand = some reads)
    (hpayload : minLen ≤ payload.length) (hsize : payload.length < 2 ^ 16)
    (hfirst : FirstAt Response.secUniqid reads.flatten position)
    (hanswer : reads.flatten.drop position =
      packetBytes clsSec Command.secUniqid payload ++ tail) :
    (¬Overruns Response.secUniqid [] reads →
      requestId device id = (.returned true, some (trueIdentifier payload)) ∨
        (requestId device id).2 = some id) ∧
    (∀ quiet chunk later, reads = quiet ++ [chunk] ++ later →
      ¬Response.secUniqid <:+: quiet.flatten →
      ¬Response.nak <:+: (quiet ++ [chunk]).flatten →
      position + dataOffset + payload.length ≤ (quiet ++ [chunk]).flatten.length →
      requestId device id = (.returned true, some (trueIdentifier payload))) ∧
    ∀ other, trueIdentifier other = trueIdentifier payload →
      (other.drop idOffset).take 5 = (payload.drop idOffset).take 5 := by
  refine ⟨?_, ?_, ?_⟩
  · exact requestId_of_not_overruns device id hanswers hpayload hfirst hanswer
  · rintro quiet chunk later rfl hquiet herror hwhole
    exact requestId_of_whole device id hanswers hpayload hsize hfirst hanswer hquiet herror hwhole
  · exact fun other hother => trueIdentifier_injective hother

end Requests

/-- The head of the answer behind so much else that the length wraps around. -/
def lateHead : List UInt8 :=
  List.replicate (2 ^ 16 - 6) 0 ++ Response.secUniqid

theorem overruns_lateHead : Overruns Response.secUniqid [] [lateHead] := by
  have hzeros : ∀ earlier < 2 ^ 16 - 6, lateHead.drop earlier =
      List.replicate (2 ^ 16 - 6 - earlier) 0 ++ Response.secUniqid := by
    intro earlier hearlier
    rw [lateHead, List.drop_append_of_le_length (by rw [List.length_replicate]; omega),
      List.drop_replicate]
  have hdrop : lateHead.drop (2 ^ 16 - 6) = Response.secUniqid :=
    List.drop_left' List.length_replicate
  have hlength : lateHead.length = 2 ^ 16 - 2 := by
    rw [lateHead, List.length_append, List.length_replicate]
    rfl
  have hnak : ¬Response.nak <:+: [] ++ lateHead := by
    intro hinfix
    have hmem : (0x05 : UInt8) ∈ lateHead := hinfix.subset (by decide)
    rcases List.mem_append.mp hmem with hzero | hhead
    · exact absurd (List.eq_of_mem_replicate hzero) (by decide)
    · simp [Response.secUniqid, sync1, sync2, clsSec, Command.secUniqid] at hhead
  refine Or.inl ⟨by decide, hnak, 2 ^ 16 - 6, ⟨?_, ?_⟩, ?_, ?_⟩
  · rw [List.nil_append, hdrop]
  · intro earlier hearlier hstarts
    rw [List.nil_append, hzeros earlier hearlier] at hstarts
    obtain ⟨count, hcount⟩ : ∃ count, 2 ^ 16 - 6 - earlier = count + 1 :=
      ⟨2 ^ 16 - 7 - earlier, by omega⟩
    rw [hcount, List.replicate_succ, List.cons_append] at hstarts
    exact absurd (List.cons_prefix_cons.mp hstarts).1 (by decide)
  · rw [List.nil_append, hlength, dataOffset]
    omega
  · rw [declaredEnd_eq, dataOffset]
    omega

/-- A receiver with this answer to every request. -/
def lateReceiver : List UInt8 → Option (List (List UInt8)) :=
  fun _ => some [lateHead]

theorem requests_overrun_iff_late : (requestId lateReceiver "id_0").1 = .overran :=
  (requests_overrun_iff lateReceiver "id_0" rfl rfl).1.mpr overruns_lateHead

/-- A receiver whose identifier comes in two reads. -/
def receiverPayload : List UInt8 := [1, 0, 0, 0, 0x0A, 0x1B, 0x2C, 0x3D, 0x4E]

def identifiedReceiver : List UInt8 → Option (List (List UInt8)) := fun _ =>
  let answer := packetBytes clsSec Command.secUniqid receiverPayload
  some [answer.take 3, answer.drop 3]

theorem requestId_identifies_two :
    requestId identifiedReceiver "id_0" = (.returned true, some "ublox_0A1B2C3D4E") := by
  have hflatten : [(packetBytes clsSec Command.secUniqid receiverPayload).take 3,
      (packetBytes clsSec Command.secUniqid receiverPayload).drop 3].flatten =
        packetBytes clsSec Command.secUniqid receiverPayload ++ [] := by
    decide
  have hfirst : FirstAt Response.secUniqid
      [(packetBytes clsSec Command.secUniqid receiverPayload).take 3,
        (packetBytes clsSec Command.secUniqid receiverPayload).drop 3].flatten 0 := by
    rw [hflatten]
    exact ⟨by decide, fun _ hearlier => absurd hearlier (by omega)⟩
  have hall := requestId_identifies identifiedReceiver "id_0" rfl
    (show minLen ≤ receiverPayload.length by decide)
    (show receiverPayload.length < 2 ^ 16 by decide) hfirst hflatten
  exact hall.2.1 [_] _ [] rfl (by decide) (by decide) (by decide)

end SensorHub.Ublox
