import SensorHub.PortAnswers
import SensorHub.TimerChains

/-!
# Setting up a Runwell device

The answers of the device have no head.  A request waits until a fixed number of
bytes has been read and takes them from the first one on, however they are cut
into reads.

Afterwards a timer requests the data again and again.  It is set by the
initialization, also if that fails, and cancelled when the device is
disconnected.
-/

namespace SensorHub.Runwell

open PortDevice

/-! ## Requests -/

def newline : UInt8 := 0x0A

def idCommand : List UInt8 := [0x61, newline]
def versionCommand : List UInt8 := [0x68, newline]

/-- Three times `X` -/
def errorResp : List UInt8 := [0x58, 0x58, 0x58]

def minIdLen : UInt8 := 17
def minVersionLen : UInt8 := 48

def macOffsets : List ℕ := [0, 1, 3, 4, 6, 7, 9, 10, 12, 13, 15, 16]

/-- The characters of the address, unless one of them is behind the end. -/
def mac (response : List UInt8) : Option (List UInt8) :=
  macOffsets.mapM fun offset => response[offset]?

def identifier (mac : List UInt8) : String :=
  "runwell_" ++ String.ofList (mac.map fun c => Char.ofNat c.toNat)

def requestId (device : List UInt8 → Option (List (List UInt8))) (id : String) :
    Ending × String :=
  match execCommand device idCommand [] errorResp (some [0xFF, minIdLen]) with
  | none => (.threw, id)
  | some result =>
      let response := result.data.getD []
      if result.success && decide (minIdLen.toNat ≤ response.length) then
        match mac response with
        | none => (.overran, id)
        | some mac => (.returned result.success, identifier mac)
      else (.returned result.success, id)

/-- The loop over the response, which ends behind the second line; `none` for a
read behind the end of the response. -/
def versionLoop (response : List UInt8) : ℕ → ℕ → List UInt8 → ℕ → Option (List (List UInt8))
  | 0, _, _, _ => some []
  | left + 1, i, version, j =>
      match response[i]? with
      | none => none
      | some c =>
          if c = newline then
            if 1 < j + 1 then some [version]
            else (versionLoop response left (i + 1) [] (j + 1)).map (version :: ·)
          else versionLoop response left (i + 1) (if 0x20 ≤ c then version ++ [c] else version) j

/-- The lines that are logged. -/
def requestVersion (device : List UInt8 → Option (List (List UInt8))) :
    Ending × List (List UInt8) :=
  match execCommand device versionCommand [] errorResp (some [0xFF, minVersionLen]) with
  | none => (.threw, [])
  | some result =>
      if result.success then
        match versionLoop (result.data.getD []) minVersionLen.toNat 0 [] 0 with
        | none => (.overran, [])
        | some lines => (.returned true, lines)
      else (.returned false, [])

/-! ## Answers without a head -/

/-- What has been read when there is enough, unless an error came before. -/
def firstFull (size : ℕ) (before : List UInt8) : List (List UInt8) → Option (List UInt8)
  | [] => none
  | received :: reads =>
      if errorResp <:+: before ++ received then none
      else if size ≤ (before ++ received).length then some (before ++ received)
      else firstFull size (before ++ received) reads

theorem firstAt_nil (response : List UInt8) : FirstAt [] response 0 :=
  ⟨List.nil_prefix, fun _ hearlier => absurd hearlier (Nat.not_lt_zero _)⟩

/-- The loop awaits the fixed number of bytes. -/
theorem execLoop_eq_firstFull (size : UInt8) {vars : CommandVars} (reads : List (List UInt8))
    (hvars : vars.data = some [0xFF, size] ∨ vars.data = some [] ∧ vars.expectedLen = size.toNat) :
    (execLoop [] errorResp vars reads).success =
        (firstFull size.toNat vars.response reads).isSome ∧
      ∀ data, firstFull size.toNat vars.response reads = some data →
        (execLoop [] errorResp vars reads).data = some data := by
  induction reads generalizing vars with
  | nil => simp [execLoop, firstFull]
  | cons received reads ih =>
      unfold firstFull
      by_cases herror : errorResp <:+: vars.response ++ received
      · rw [execLoop_of_error vars herror]
        simp [herror]
      · have hnow := @ih ⟨vars.response ++ received, some [], size.toNat⟩ (Or.inr ⟨rfl, rfl⟩)
        have hstep : execLoop [] errorResp vars (received :: reads) =
            if size.toNat ≤ (vars.response ++ received).length then
              ⟨true, some (vars.response ++ received)⟩
            else execLoop [] errorResp ⟨vars.response ++ received, some [], size.toNat⟩ reads := by
          rcases hvars with hdata | ⟨hdata, hlen⟩
          · have hfixed : lengthIndicator [0xFF, size] (vars.response ++ received) 0 =
                size.toNat := rfl
            simp [execLoop, containsAt_nonneg_iff, herror, hdata,
              containsAt_of_firstAt (firstAt_nil _), hfixed]
          · have hwaiting := @execLoop_of_waiting _ _ _ reads 0 vars hdata herror (firstAt_nil _)
            simpa [hlen] using hwaiting
        rw [hstep, if_neg herror]
        by_cases hfull : size.toNat ≤ (vars.response ++ received).length
        · simp only [if_pos hfull]
          exact ⟨rfl, fun _ hdata => hdata⟩
        · simp only [if_neg hfull]
          exact hnow

/-- What is returned is the beginning of what is read and long enough. -/
theorem firstFull_spec {size : ℕ} {before data : List UInt8} {reads : List (List UInt8)}
    (hfull : firstFull size before reads = some data) :
    size ≤ data.length ∧ data <+: before ++ reads.flatten := by
  induction reads generalizing before with
  | nil => simp [firstFull] at hfull
  | cons received reads ih =>
      rw [List.flatten_cons, ← List.append_assoc]
      unfold firstFull at hfull
      split at hfull
      · simp at hfull
      · split at hfull
        · next hsize =>
          obtain rfl := Option.some.inj hfull
          exact ⟨hsize, List.prefix_append _ _⟩
        · exact ih hfull

/-- There is an answer exactly if some read ends with enough and without an
error. -/
theorem firstFull_isSome_iff {size : ℕ} {before : List UInt8} (hbefore : before.length < size)
    (reads : List (List UInt8)) :
    (firstFull size before reads).isSome = true ↔
      ∃ count ≤ reads.length, size ≤ (border before reads count).length ∧
        ¬errorResp <:+: border before reads count := by
  induction reads generalizing before with
  | nil =>
      have hshort : ¬size ≤ before.length := by
        omega
      simp [firstFull, hshort]
  | cons received reads ih =>
      unfold firstFull
      by_cases herror : errorResp <:+: before ++ received
      · simp only [if_pos herror, Option.isSome_none, Bool.false_eq_true, false_iff, not_exists,
          not_and, not_not]
        intro count _ hlong
        cases count with
        | zero =>
            rw [border_zero] at hlong
            omega
        | succ count =>
            rw [border_cons_succ]
            exact herror.trans (prefix_border _ reads count).isInfix
      · rw [if_neg herror]
        by_cases hfull : size ≤ (before ++ received).length
        · simp only [if_pos hfull, Option.isSome_some, true_iff]
          refine ⟨1, by simp, ?_⟩
          rw [border_cons_succ, border_zero]
          exact ⟨hfull, herror⟩
        · rw [if_neg hfull, ih (by omega)]
          constructor
          · rintro ⟨count, hcount, hlong, hnone⟩
            refine ⟨count + 1, by simpa using hcount, ?_⟩
            rw [border_cons_succ]
            exact ⟨hlong, hnone⟩
          · rintro ⟨count, hcount, hlong, hnone⟩
            cases count with
            | zero =>
                rw [border_zero] at hlong
                omega
            | succ count =>
                rw [border_cons_succ] at hlong hnone
                exact ⟨count, by simpa using hcount, hlong, hnone⟩

/-! ## What is read from an answer -/

theorem mapM_getElem? {response : List UInt8} {offsets : List ℕ}
    (hoffsets : ∀ offset ∈ offsets, offset < response.length) :
    offsets.mapM (fun offset => response[offset]?) =
      some (offsets.map fun offset => response.getD offset 0) := by
  induction offsets with
  | nil => rfl
  | cons offset offsets ih =>
      have hget : response[offset]? = some (response.getD offset 0) := by
        rw [List.getD_eq_getElem?_getD, List.getElem?_eq_getElem (hoffsets offset (by simp))]
        rfl
      rw [List.mapM_cons, hget, ih fun later hlater => hoffsets later (by simp [hlater])]
      rfl

/-- The address of a long enough response is that of the stream it begins. -/
theorem mac_of_begins {response stream : List UInt8} (hlong : minIdLen.toNat ≤ response.length)
    (hbegins : response <+: stream) :
    mac response = some (macOffsets.map fun offset => stream.getD offset 0) := by
  have hoffsets : ∀ offset ∈ macOffsets, offset < response.length := by
    intro offset hmem
    have hlt : ∀ offset ∈ macOffsets, offset < minIdLen.toNat := by
      decide
    exact (hlt offset hmem).trans_le hlong
  rw [mac, mapM_getElem? hoffsets]
  refine congrArg some (List.map_congr_left fun offset hmem => ?_)
  obtain ⟨more, rfl⟩ := hbegins
  rw [List.getD_eq_getElem?_getD, List.getD_eq_getElem?_getD,
    List.getElem?_append_left (hoffsets offset hmem)]

/-- The lines of a text that have ended, without the control characters. -/
def textLines (text : List UInt8) : List (List UInt8) :=
  (text.splitOnP (· = newline)).dropLast.map (List.filter (0x20 ≤ ·))

theorem textLines_cons (c : UInt8) (text : List UInt8) :
    textLines (c :: text) =
      if c = newline then [] :: textLines text
      else (textLines text).modifyHead (if 0x20 ≤ c then (c :: ·) else id) := by
  obtain ⟨line, lines, hsplit⟩ := List.exists_cons_of_ne_nil
    (List.splitOnP_ne_nil (fun c => decide (c = newline)) text)
  unfold textLines
  rw [List.splitOnP_cons_eq_if_modifyHead, hsplit]
  by_cases hnewline : c = newline
  · simp [hnewline]
  · simp only [hnewline, decide_false, Bool.false_eq_true, if_false, List.modifyHead_cons]
    cases lines with
    | nil => simp
    | cons line' lines =>
        by_cases hprintable : 0x20 ≤ c <;> simp [hprintable]

theorem versionLoop_eq {response : List UInt8} {left i : ℕ} (hlong : i + left ≤ response.length)
    (version : List UInt8) {j : ℕ} (hj : j ≤ 1) :
    versionLoop response left i version j =
      some (((textLines ((response.drop i).take left)).modifyHead (version ++ ·)).take (2 - j)) := by
  induction left generalizing i version j with
  | zero => simp [versionLoop, textLines]
  | succ left ih =>
      have hlt : i < response.length := by
        omega
      have htake : (response.drop i).take (left + 1) =
          response[i] :: (response.drop (i + 1)).take left := by
        rw [List.drop_eq_getElem_cons hlt, List.take_succ_cons]
      rw [versionLoop, List.getElem?_eq_getElem hlt, htake, textLines_cons]
      simp only
      split
      · rw [List.modifyHead_cons, List.append_nil]
        by_cases hsecond : j = 1
        · simp [hsecond]
        · obtain rfl : j = 0 := by omega
          rw [if_neg (by omega), ih (by omega) [] le_rfl]
          cases textLines ((response.drop (i + 1)).take left) <;> simp
      · rw [ih (by omega) _ hj]
        congr 2
        cases textLines ((response.drop (i + 1)).take left) with
        | nil => rfl
        | cons line lines =>
            by_cases hprintable : 0x20 ≤ response[i] <;> simp [hprintable]

/-- How a command for a fixed number of bytes ends. -/
theorem execCommand_cases {device : List UInt8 → Option (List (List UInt8))}
    {command : List UInt8} {reads : List (List UInt8)} (hanswers : device command = some reads)
    {size : UInt8} (hsize : 0 < size.toNat) :
    ∃ result, execCommand device command [] errorResp (some [0xFF, size]) = some result ∧
      (result.success = true ↔ ∃ count ≤ reads.length,
        size.toNat ≤ (border [] reads count).length ∧ ¬errorResp <:+: border [] reads count) ∧
      (result.success = true → ∃ data, result.data = some data ∧
        size.toNat ≤ data.length ∧ data <+: reads.flatten) := by
  obtain ⟨hsuccess, hdata⟩ :=
    @execLoop_eq_firstFull size ⟨[], some [0xFF, size], 0⟩ reads (Or.inl rfl)
  have hexec : execCommand device command [] errorResp (some [0xFF, size]) =
      some (execLoop [] errorResp ⟨[], some [0xFF, size], 0⟩ reads) := by
    rw [execCommand, hanswers]
    rfl
  refine ⟨_, hexec, ?_, ?_⟩
  · rw [hsuccess]
    exact firstFull_isSome_iff hsize reads
  · intro hsucceeded
    rw [hsuccess] at hsucceeded
    obtain ⟨data, hfull⟩ := Option.isSome_iff_exists.mp hsucceeded
    exact ⟨data, hdata data hfull, firstFull_spec hfull⟩

/-- Both requests read within the response.  They succeed exactly if some read
ends with enough of the answer and without an error, and what they get is then in
the first bytes of the stream, however it is cut into reads. -/
theorem requests_identify (device : List UInt8 → Option (List (List UInt8))) (id : String)
    {idReads versionReads : List (List UInt8)} (hid : device idCommand = some idReads)
    (hversion : device versionCommand = some versionReads) :
    (∃ success, requestId device id = (.returned success,
        if success then identifier (macOffsets.map fun offset => idReads.flatten.getD offset 0)
        else id) ∧
      (success = true ↔ ∃ count ≤ idReads.length,
        minIdLen.toNat ≤ (border [] idReads count).length ∧
          ¬errorResp <:+: border [] idReads count)) ∧
    ∃ success, requestVersion device = (.returned success,
        if success then (textLines (versionReads.flatten.take minVersionLen.toNat)).take 2
        else []) ∧
      (success = true ↔ ∃ count ≤ versionReads.length,
        minVersionLen.toNat ≤ (border [] versionReads count).length ∧
          ¬errorResp <:+: border [] versionReads count) := by
  constructor
  · obtain ⟨⟨success, response⟩, hexec, hiff, hdata⟩ :=
      execCommand_cases hid (show 0 < minIdLen.toNat by decide)
    refine ⟨success, ?_, hiff⟩
    rw [requestId, hexec]
    cases success with
    | false => simp
    | true =>
        obtain ⟨data, rfl, hlong, hbegins⟩ := hdata rfl
        simp [hlong, mac_of_begins hlong hbegins]
  · obtain ⟨⟨success, response⟩, hexec, hiff, hdata⟩ :=
      execCommand_cases hversion (show 0 < minVersionLen.toNat by decide)
    refine ⟨success, ?_, hiff⟩
    rw [requestVersion, hexec]
    cases success with
    | false => simp
    | true =>
        obtain ⟨data, rfl, hlong, hbegins⟩ := hdata rfl
        obtain ⟨more, hmore⟩ := hbegins
        have htake : data.take minVersionLen.toNat =
            versionReads.flatten.take minVersionLen.toNat := by
          rw [← hmore, List.take_append_of_le_length hlong]
        have hloop := versionLoop_eq (show 0 + minVersionLen.toNat ≤ data.length by omega) []
          (Nat.zero_le 1)
        rw [List.drop_zero, htake] at hloop
        simp only [Option.getD_some, hloop, if_true]
        cases textLines (versionReads.flatten.take minVersionLen.toNat) <;> simp

/-- A device that answers in two reads. -/
def answering : List UInt8 → Option (List (List UInt8)) := fun command =>
  let address := "60:01:94:0A:1B:2C\n".toList.map fun c => UInt8.ofNat c.toNat
  let version := "Runwell 1.4\r\nESP8266 build 2019-06-11 10:04:59\nready\n".toList.map
    fun c => UInt8.ofNat c.toNat
  some (if command = idCommand then [address.take 3, address.drop 3]
    else [version.take 20, version.drop 20])

theorem requests_identify_two :
    requestId answering "id_0" = (.returned true, "runwell_6001940A1B2C") := by
  obtain ⟨⟨success, hid, hiff⟩, -⟩ := requests_identify answering "id_0" rfl rfl
  obtain rfl : success = true := hiff.mpr ⟨2, by decide⟩
  rw [hid]
  decide

end SensorHub.Runwell
