import SensorHub.XsensSetup

/-!
# Identifying an MTi

The identifier of a sensor is made of the bytes of its answer.  A command may
return before all of an answer has been read, so the response can end anywhere
in it.  Its size tells whether that has happened.
-/

namespace SensorHub.Xsens

open PortDevice Command

/-! ## Identifiers -/

/-- The identifier of a sensor whose answer has this payload. -/
def trueIdentifier (payload : List UInt8) : String :=
  "xsens_" ++ serialNo payload

def unknownIdentifier : String := "xsens_unknown_serial"

theorem packet_split (payload tail : List UInt8) :
    ∃ chk, packet deviceId payload ++ tail =
      [packetStart, sysCommand, deviceId, UInt8.ofNat payload.length] ++ payload ++
        chk :: tail := by
  refine ⟨checksum (packetHead deviceId ++ [UInt8.ofNat payload.length] ++ payload), ?_⟩
  simp [packet, packetHead]

theorem size_of_begins {response tail payload : List UInt8} (hpayload : payload.length < 2 ^ 8)
    (hbegins : response <+: packet deviceId payload ++ tail) (hsize : 3 < response.length) :
    (response.getD 3 0).toNat = payload.length := by
  obtain ⟨cut, hcut⟩ := hbegins
  obtain ⟨chk, hpacket⟩ := packet_split payload tail
  have hget : (response ++ cut)[3]? = some (UInt8.ofNat payload.length) := by
    rw [hcut, hpacket]
    rfl
  rw [List.getElem?_append_left hsize] at hget
  rw [List.getD_eq_getElem?_getD, hget, Option.getD_some]
  exact UInt8.toNat_ofNat_of_lt' hpayload

/-- A part of the answer is recognized by the size in it. -/
theorem identifier_of_begins {response tail payload : List UInt8} (hpayload : payload.length < 2 ^ 8)
    (hbegins : response <+: packet deviceId payload ++ tail) :
    identifier response =
      if response.length ≤ 3 then none
      else if response.length ≤ 3 + payload.length then some unknownIdentifier
      else some (trueIdentifier payload) := by
  unfold identifier
  by_cases hshort : response.length ≤ 3
  · rw [if_pos hshort, if_neg (by simpa [sizeOffset] using hshort)]
  · have hsize := size_of_begins hpayload hbegins (by omega)
    rw [if_neg hshort, if_pos (by simpa [sizeOffset] using hshort)]
    simp only [sizeOffset, hsize]
    by_cases hpart : response.length ≤ 3 + payload.length
    · rw [if_pos hpart, if_neg (by omega)]
      rfl
    · rw [if_neg hpart, if_pos (by omega)]
      have hdata : (response.drop 4).take payload.length = payload := by
        obtain ⟨cut, hcut⟩ := hbegins
        obtain ⟨chk, hpacket⟩ := packet_split payload tail
        have hdrop : response.drop 4 ++ cut = payload ++ chk :: tail := by
          rw [← List.drop_append_of_le_length (by omega), hcut, hpacket]
          rfl
        have htake := congrArg (List.take payload.length) hdrop
        rwa [List.take_append_of_le_length (by rw [List.length_drop]; omega),
          List.take_left] at htake
      rw [show dataOffset = 4 from rfl, hdata]
      rfl

theorem requestIdentifier_eq (sensor : Sensor) (session : Session) {reads : List (List UInt8)}
    (hanswers : sensor.answers (session.written ++ [Mti.didRequest.packet]) = some reads) :
    requestIdentifier sensor session =
      let result := execLoop (packetHead deviceId) errorResp ⟨[], some [3], 3⟩ reads
      let after := session.record ⟨Mti.didRequest, some result.success⟩
      match identifier (result.data.getD []) with
      | none => (some false, after)
      | some id =>
          if result.success then (some true, { after with id := id }) else (some false, after) := by
  have hexec : execCommand sensor (requestCommand reqDid deviceId)
      (some [UInt8.ofNat sizeOffset]) session =
      (some (execLoop (packetHead deviceId) errorResp ⟨[], some [3], 3⟩ reads),
        session.record ⟨Mti.didRequest, some
          (execLoop (packetHead deviceId) errorResp ⟨[], some [3], 3⟩ reads).success⟩) := by
    unfold execCommand PortDevice.execCommand
    simp only
    rw [show (requestCommand reqDid deviceId).packet = Mti.didRequest.packet from rfl, hanswers]
    rfl
  rewrite [requestIdentifier, hexec]
  rfl

/-- However the answer of a sensor is cut into reads, the device gets its
identifier, or the one of an unknown sensor, or the request fails; an answer in
one read gives the identifier.  Different sensors have different identifiers. -/
theorem requestIdentifier_identifies (sensor : Sensor) (session : Session)
    {reads : List (List UInt8)} {payload tail : List UInt8} {position : ℕ}
    (hanswers : sensor.answers (session.written ++ [Mti.didRequest.packet]) = some reads)
    (hpayload : payload.length < 2 ^ 8)
    (hfirst : FirstAt (packetHead deviceId) reads.flatten position)
    (hanswer : reads.flatten.drop position = packet deviceId payload ++ tail) :
    (∀ after, requestIdentifier sensor session = (some true, after) →
      after.id = trueIdentifier payload ∨ after.id = unknownIdentifier) ∧
    (∀ result after, requestIdentifier sensor session = (result, after) → result ≠ some true →
      after.id = session.id) ∧
    (∀ quiet chunk later, reads = quiet ++ [chunk] ++ later → ¬packetHead deviceId <:+: quiet.flatten →
      ¬errorResp <:+: (quiet ++ [chunk]).flatten →
      position + (packet deviceId payload).length ≤ (quiet ++ [chunk]).flatten.length →
      ∃ after, requestIdentifier sensor session = (some true, after) ∧
        after.id = trueIdentifier payload) ∧
    ∀ other, trueIdentifier other = trueIdentifier payload → other = payload := by
  have heq := requestIdentifier_eq sensor session hanswers
  simp only at heq
  have hhead : packetHead deviceId ≠ [] := by
    decide
  refine ⟨?_, ?_, ?_, ?_⟩
  · intro after hrun
    rw [heq] at hrun
    rcases hresult : execLoop (packetHead deviceId) errorResp ⟨[], some [3], 3⟩ reads with
      ⟨success, data⟩
    rw [hresult] at hrun
    cases hid : identifier (data.getD []) with
    | none => simp [hid] at hrun
    | some id =>
        simp only [hid] at hrun
        split at hrun
        · next hsuccess =>
          rw [← (Prod.mk.inj hrun).2]
          cases data with
          | none => simp [identifier] at hid
          | some data =>
              rw [hsuccess] at hresult
              have hbegins := response_begins hhead hfirst hresult
              rw [hanswer] at hbegins
              rw [Option.getD_some, identifier_of_begins hpayload hbegins] at hid
              split at hid
              · simp at hid
              · split at hid
                · exact Or.inr (Option.some.inj hid).symm
                · exact Or.inl (Option.some.inj hid).symm
        · simp at hrun
  · intro result after hrun hfailed
    rw [heq] at hrun
    split at hrun
    · rw [← (Prod.mk.inj hrun).2]
      rfl
    · split at hrun
      · exact absurd (Prod.mk.inj hrun).1.symm hfailed
      · rw [← (Prod.mk.inj hrun).2]
        rfl
  · intro quiet chunk later hreads hquiet herror hwhole
    obtain ⟨more, hmore⟩ : ∃ more, reads.flatten = (quiet ++ [chunk]).flatten ++ more :=
      ⟨later.flatten, by rw [hreads, List.flatten_append]⟩
    have hstart : position ≤ (quiet ++ [chunk]).flatten.length := by
      omega
    have hdata : (quiet ++ [chunk]).flatten.drop position <+: packet deviceId payload ++ tail := by
      rw [← hanswer, hmore, List.drop_append_of_le_length hstart]
      exact List.prefix_append _ _
    have hlong : (packet deviceId payload).length ≤
        ((quiet ++ [chunk]).flatten.drop position).length := by
      rw [List.length_drop]
      omega
    have hlength : (packet deviceId payload).length = 5 + payload.length := by
      simp [packet, packetHead]
      omega
    have hfound : FirstAt (packetHead deviceId) (quiet ++ [chunk]).flatten position := by
      have hheadLength : (packetHead deviceId).length = 3 := rfl
      rw [hmore] at hfirst
      apply firstAt_of_append hfirst
      omega
    have hresult : execLoop (packetHead deviceId) errorResp ⟨[], some [3], 3⟩ reads =
        ⟨true, some ((quiet ++ [chunk]).flatten.drop position)⟩ := by
      have hawaited : (Primed.one 3).awaited (quiet ++ [chunk]).flatten position ≤
          (quiet ++ [chunk]).flatten.length := by
        have hsize := size_of_begins hpayload hdata (by omega)
        have hdeclared : (Primed.one 3).awaited (quiet ++ [chunk]).flatten position =
            payload.length := hsize
        rw [List.length_drop] at hlong
        omega
      rw [hreads]
      exact @execLoop_whole _ _ (.one 3) quiet later chunk 3 position (by simp [Primed.bytes])
        hquiet herror hfound hawaited
    have hid : identifier ((quiet ++ [chunk]).flatten.drop position) =
        some (trueIdentifier payload) := by
      rw [identifier_of_begins hpayload hdata, if_neg (by omega), if_neg (by omega)]
    rw [heq, hresult]
    simp only [Option.getD_some, hid, if_true]
    exact ⟨_, rfl, rfl⟩
  · intro other hother
    apply serialNo_injective
    have hchars := congrArg String.toList hother
    rw [trueIdentifier, trueIdentifier, String.toList_append, String.toList_append] at hchars
    exact String.toList_inj.mp (List.append_cancel_left hchars)

/-- A sensor that answers every message with its identifier. -/
def identified : Sensor :=
  ⟨none, fun _ => some [packet deviceId [0x03, 0x60, 0x12, 0x34]]⟩

theorem requestIdentifier_identifies_whole :
    ∃ after, requestIdentifier identified ⟨[], "id_0", false⟩ = (some true, after) ∧
      after.id = "xsens_03601234" := by
  have hfirst : FirstAt (packetHead deviceId)
      [packet deviceId [0x03, 0x60, 0x12, 0x34]].flatten 0 :=
    ⟨by decide, fun _ hearlier => absurd hearlier (by omega)⟩
  have hanswer : [packet deviceId [0x03, 0x60, 0x12, 0x34]].flatten.drop 0 =
      packet deviceId [0x03, 0x60, 0x12, 0x34] ++ [] := rfl
  have hall := requestIdentifier_identifies identified ⟨[], "id_0", false⟩ rfl (by decide)
    hfirst hanswer
  exact hall.2.2.1 [] _ [] rfl (by decide) (by decide) (by decide)

end SensorHub.Xsens
