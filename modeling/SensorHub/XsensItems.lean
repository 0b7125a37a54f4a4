import SensorHub.XsensData

/-!
# The items of an Xsens message

A message is made of data items, each an identifier of 16 bits, a length byte
and the content.  An item is known by its identifier and its length together;
every other item is skipped by the generic rule.  The grammar is compared here
with that description.

A known item has a value for each of its quantities, unless the wrapping of an
angle never ends; then the visitor never ends either.  Without rounding this is
so for infinite angles only, in `double` also for finite ones that are too large
for a turn to be taken off.
-/

namespace SensorHub.Xsens

open X3
open Filter (atTop eventually_atTop eventually_all_finset eventually_all_finite)

structure Item where
  id : UInt16
  content : List UInt8
  length_lt : content.length < 2 ^ 8

/-- The attribute types other than date and time, in the order of the
alternatives. -/
def kinds (flip : Bool) : List DataValue :=
  [acceleration flip, freeAcceleration flip, rateOfTurn flip, latLon,
   magneticFlux flip, velocity flip, altitudeEllipsoid, altitudeMsl,
   eulerAngles flip, quaternion flip]

def DataValue.size (kind : DataValue) : ℕ :=
  kind.dim * kind.format.size

variable {K : Type} [ExactDouble K]

/-- A big endian number of the format. -/
def SubFormat.decode (format : SubFormat) (content : List UInt8) : IeeeDouble K :=
  match format with
  | .float => .ofBits 8 23 (bigEndian content)
  | .double => .ofBits 11 52 (bigEndian content)

def DataValue.decode (kind : DataValue) (content : List UInt8) : List (IeeeDouble K) :=
  (List.range kind.dim).map fun index =>
    kind.format.decode ((content.drop (index * kind.format.size)).take kind.format.size)

def DateTime.decode (content : List UInt8) : DateTime where
  nano := bigEndian (content.take 4)
  year := bigEndian ((content.drop 4).take 2)
  month := (content.getD 6 0).toNat
  day := (content.getD 7 0).toNat
  hour := (content.getD 8 0).toNat
  minute := (content.getD 9 0).toNat
  second := (content.getD 10 0).toNat
  flags := content.getD 11 0

namespace Item

def idBytes (item : Item) : List UInt8 :=
  [UInt8.ofNat (item.id.toNat / 2 ^ 8), UInt8.ofNat (item.id.toNat % 2 ^ 8)]

def lengthByte (item : Item) : UInt8 :=
  UInt8.ofNat item.content.length

def encode (item : Item) : List UInt8 :=
  item.idBytes ++ item.lengthByte :: item.content

def IsDateTime (item : Item) : Prop :=
  item.id.toNat = DateTime.did ∧ item.content.length = DateTime.len.toNat

instance (item : Item) : Decidable item.IsDateTime :=
  inferInstanceAs (Decidable (_ ∧ _))

def IsOfKind (item : Item) (kind : DataValue) : Prop :=
  item.id.toNat = kind.did ∧ item.content.length = kind.size

instance (item : Item) (kind : DataValue) : Decidable (item.IsOfKind kind) :=
  inferInstanceAs (Decidable (_ ∧ _))

def packet (flip : Bool) (item : Item) : DataPacket K :=
  if item.IsDateTime then
    .dateTime (DateTime.decode item.content)
  else
    match (kinds flip).find? fun kind => item.IsOfKind kind with
    | some kind => .dataValue kind (kind.decode item.content)
    | none => .unknown ⟨item.id.toNat, -1⟩

/-! ## Each rule on one item -/

theorem length_idBytes (item : Item) : item.idBytes.length = 2 := rfl

theorem bigEndian_idBytes (item : Item) : bigEndian item.idBytes = item.id.toNat := by
  have hlt := item.id.toNat_lt
  have hhigh : (UInt8.ofNat (item.id.toNat / 2 ^ 8)).toNat = item.id.toNat / 2 ^ 8 :=
    UInt8.toNat_ofNat_of_lt' (by
      change item.id.toNat / 2 ^ 8 < 2 ^ 8
      omega)
  have hlow : (UInt8.ofNat (item.id.toNat % 2 ^ 8)).toNat = item.id.toNat % 2 ^ 8 :=
    UInt8.toNat_ofNat_of_lt' (Nat.mod_lt _ (by norm_num))
  simp only [bigEndian, idBytes, List.foldl_cons, List.foldl_nil, hhigh, hlow]
  omega

theorem toNat_lengthByte (item : Item) : item.lengthByte.toNat = item.content.length :=
  UInt8.toNat_ofNat_of_lt' item.length_lt

theorem lengthByte_eq_iff (item : Item) (len : UInt8) :
    item.lengthByte = len ↔ item.content.length = len.toNat := by
  rw [← UInt8.toNat_inj, toNat_lengthByte]

theorem encode_append (item : Item) (rest : List UInt8) :
    item.encode ++ rest = item.idBytes ++ (item.lengthByte :: (item.content ++ rest)) :=
  List.append_assoc _ _ _

/-- An identifier and a length which are asked for at the start of a rule. -/
theorem header_encode {α : Type} (item : Item) (did : ℕ) (len : UInt8)
    (next : X3.Parser Unit α) (rest : List UInt8) :
    X3.bind (bigLit 2 did) (fun _ => X3.bind (byteLit len) fun _ => next) ()
        (item.encode ++ rest) =
      if item.id.toNat = did ∧ item.content.length = len.toNat then
        next () (item.content ++ rest)
      else ((), none) := by
  have hid : bigLit 2 did () _ = _ := bigLit_of_length item.length_idBytes ()
    (item.lengthByte :: (item.content ++ rest))
  rw [bigEndian_idBytes] at hid
  rw [encode_append]
  by_cases hdid : item.id.toNat = did
  · rw [if_pos hdid] at hid
    have hlen := byteLit_cons len () item.lengthByte (item.content ++ rest)
    rw [bind_of_some hid]
    by_cases hlength : item.content.length = len.toNat
    · rw [if_pos ((item.lengthByte_eq_iff len).mpr hlength)] at hlen
      rw [if_pos ⟨hdid, hlength⟩, bind_of_some hlen]
    · rw [if_neg (mt (item.lengthByte_eq_iff len).mp hlength)] at hlen
      rw [if_neg fun hboth => hlength hboth.2, bind_of_none hlen]
  · rw [if_neg hdid] at hid
    rw [bind_of_none hid, if_neg fun hboth => hdid hboth.1]

theorem bigBin_of_length (format : SubFormat) (state : Unit) (first rest : List UInt8)
    (hfirst : first.length = format.size) :
    bigBin format state (first ++ rest) =
      (state, some ((format.decode first : IeeeDouble K), rest)) := by
  simp only [bigBin, bind_eq]
  rw [bind_of_some (big_of_length hfirst state rest)]
  cases format <;> rfl

theorem dataValueRule_encode (item : Item) (kind : DataValue) (hsize : kind.size < 2 ^ 8)
    (rest : List UInt8) :
    dataValueRule kind () (item.encode ++ rest) =
      if item.IsOfKind kind then
        ((), some ((.dataValue kind (kind.decode item.content) : DataPacket K), rest))
      else ((), none) := by
  have hlen : (UInt8.ofNat (kind.dim * kind.format.size)).toNat = kind.size :=
    UInt8.toNat_ofNat_of_lt' hsize
  have hheader := header_encode item kind.did (UInt8.ofNat (kind.dim * kind.format.size))
    (repeatN kind.dim (bigBin (K := K) kind.format)) rest
  rw [hlen] at hheader
  by_cases hkind : item.IsOfKind kind
  · rw [if_pos (by exact hkind),
      repeatN_of_length (bigBin_of_length kind.format) kind.dim hkind.2] at hheader
    rw [if_pos hkind]
    exact bind_of_some hheader
  · rw [if_neg (by exact hkind)] at hheader
    rw [if_neg hkind]
    exact bind_of_none hheader

/-- The fields of a date and time item, the last six of them bytes. -/
theorem content_split : ∀ {content : List UInt8}, content.length = 12 →
    content = content.take 4 ++ ((content.drop 4).take 2 ++
      [content.getD 6 0, content.getD 7 0, content.getD 8 0, content.getD 9 0,
        content.getD 10 0, content.getD 11 0])
  | [_, _, _, _, _, _, _, _, _, _, _, _], _ => rfl

omit [ExactDouble K] in
theorem dateTimeRule_encode (item : Item) (rest : List UInt8) :
    dateTimeRule () (item.encode ++ rest) =
      if item.IsDateTime then
        ((), some ((.dateTime (DateTime.decode item.content) : DataPacket K), rest))
      else ((), none) := by
  have hheader := fun next : X3.Parser Unit DateTime =>
    header_encode item DateTime.did DateTime.len next rest
  by_cases hdate : item.IsDateTime
  · rw [if_pos hdate]
    refine bind_of_some ((hheader _).trans ((if_pos hdate).trans ?_))
    have hlength : item.content.length = 12 := hdate.2
    have hnano : (item.content.take 4).length = 4 :=
      List.length_take_of_le (by omega)
    have hyear : ((item.content.drop 4).take 2).length = 2 :=
      List.length_take_of_le (by rw [List.length_drop]; omega)
    have hsplit := congrArg (fun content => content ++ rest) (content_split hlength)
    simp only [List.append_assoc] at hsplit
    simp only [bind_eq]
    rw [hsplit, bind_of_some (big_of_length hnano () _),
      bind_of_some (big_of_length hyear () _)]
    rfl
  · rw [if_neg hdate]
    exact bind_of_none ((hheader _).trans (if_neg hdate))

omit [ExactDouble K] in
theorem unknownRule_encode (item : Item) (rest : List UInt8) :
    unknownRule () (item.encode ++ rest) =
      ((), some ((.unknown ⟨item.id.toNat, -1⟩ : DataPacket K), rest)) := by
  have hneutral : UnknownData.counter.Neutral fun _ packet => packet :=
    ⟨fun _ _ => rfl, fun _ _ _ => rfl⟩
  let packet : UnknownData := ⟨item.id.toNat, item.content.length⟩
  have hcounter : UnknownData.counter.len packet = item.content.length := rfl
  have henough : item.content.length ≤ (item.content ++ rest).length := by
    rw [List.length_append]
    exact Nat.le_add_right _ _
  have hcontent := Counter.content_of_enough hneutral hcounter henough
  have hid := big_of_length item.length_idBytes (⟨0, 0⟩ : UnknownData)
    (item.lengthByte :: (item.content ++ rest))
  rw [List.take_left, List.drop_left, List.foldl_fixed] at hcontent
  simp only [unknownRule, unknownData, bind_eq, encode_append, X3.bind, rule, act, hid,
    bigEndian_idBytes, byte_cons, toNat_lengthByte]
  simp only [packet] at hcontent
  rw [hcontent]
  rfl

/-! ## All rules -/

theorem size_lt_of_mem_kinds {flip : Bool} {kind : DataValue} (hkind : kind ∈ kinds flip) :
    kind.size < 2 ^ 8 := by
  revert kind
  cases flip <;> decide

theorem dataItem_eq (flip : Bool) :
    dataItem (K := K) flip =
      alt dateTimeRule
        ((kinds flip).foldr (fun kind others => alt (dataValueRule kind) others)
          unknownRule) := rfl

theorem alternatives_encode (item : Item) (rest : List UInt8) (known : List DataValue)
    (hsizes : ∀ kind ∈ known, kind.size < 2 ^ 8) :
    known.foldr (fun kind others => alt (dataValueRule kind) others) unknownRule ()
        (item.encode ++ rest) =
      ((), some ((match known.find? fun kind => item.IsOfKind kind with
        | some kind => .dataValue kind (kind.decode item.content)
        | none => .unknown ⟨item.id.toNat, -1⟩ : DataPacket K), rest)) := by
  induction known with
  | nil => exact unknownRule_encode item rest
  | cons kind others ih =>
      rw [List.forall_mem_cons] at hsizes
      have hkind := dataValueRule_encode (K := K) item kind hsizes.1 rest
      rw [List.foldr_cons, alt]
      by_cases hknown : item.IsOfKind kind
      · rw [if_pos hknown] at hkind
        rw [hkind, List.find?_cons_of_pos (by simpa using hknown)]
      · rw [if_neg hknown] at hkind
        rw [hkind, List.find?_cons_of_neg (by simpa using hknown)]
        exact ih hsizes.2

theorem dataItem_encode (flip : Bool) (item : Item) (rest : List UInt8) :
    dataItem flip () (item.encode ++ rest) =
      ((), some ((item.packet flip : DataPacket K), rest)) := by
  have hdate := dateTimeRule_encode (K := K) item rest
  rw [dataItem_eq, alt, packet]
  by_cases hknown : item.IsDateTime
  · rw [if_pos hknown] at hdate
    rw [hdate, if_pos hknown]
  · rw [if_neg hknown] at hdate
    rw [hdate, if_neg hknown]
    exact alternatives_encode item rest _ fun kind hkind => size_lt_of_mem_kinds hkind

end Item

/-- `data_parser` and `flipped_parser` -/
def itemParser (flip : Bool) : X3.Parser Unit (List (DataPacket K)) :=
  if flip then flippedParser else dataParser

theorem itemParser_encode (flip : Bool) (items : List Item) :
    itemParser flip () (items.flatMap Item.encode) =
      ((), some (items.map fun item => (item.packet flip : DataPacket K), [])) := by
  have hnil : dataItem (K := K) flip () [] = ((), none) := rfl
  have hkleene := kleene_flatMap hnil (Item.dataItem_encode flip)
    (fun item => by simp [Item.encode]) items
  cases flip <;> exact hkleene

/-! ## The values of an item -/

namespace DataValue

def quantityAt (kind : DataValue) (index : ℕ) : Quantity :=
  Quantity.ofIndex (kind.quantity.index + index)

/-- The number a value is converted from. -/
def raw (kind : DataValue) (data : List (IeeeDouble K)) (index : ℕ) : IeeeDouble K :=
  data.getD (indexPermute kind.dim kind.flip index) .nan

/-- The value at an index before it is wrapped. -/
def convertedAt (rounding : Rounding K) (kind : DataValue) (data : List (IeeeDouble K))
    (index : ℕ) : IeeeDouble K :=
  kind.convert rounding index (kind.raw data index)

/-- The wrapping of every angle of the data ends. -/
def AnglesWrap (rounding : Rounding K) (kind : DataValue) (data : List (IeeeDouble K)) : Prop :=
  ∀ index < kind.dim,
    (kind.convertedAt rounding data index).Wraps rounding (kind.quantityAt index)

variable {rounding : Rounding K}

theorem exists_getValues (kind : DataValue) {data : List (IeeeDouble K)}
    (hwrap : kind.AnglesWrap rounding data) :
    ∃ values : List (QuantityValue (IeeeDouble K)),
      values.map QuantityValue.quantity = (List.range kind.dim).map kind.quantityAt ∧
        ∀ᶠ fuel in atTop, kind.getValues rounding fuel data = .values values := by
  have hresults : ∀ index, ∃ result, index < kind.dim → ∀ᶠ fuel in atTop,
      IeeeDouble.valueNorm rounding fuel (kind.quantityAt index)
        (kind.convertedAt rounding data index) = some result := by
    intro index
    by_cases hindex : index < kind.dim
    · obtain ⟨result, hresult⟩ := (hwrap index hindex).exists_valueNorm
      exact ⟨result, fun _ => eventually_atTop.mpr hresult⟩
    · exact ⟨.nan, fun h => absurd h hindex⟩
  choose result hresult using hresults
  refine ⟨(List.range kind.dim).map fun index => ⟨result index, kind.quantityAt index⟩,
    by simp only [List.map_map]; rfl, ?_⟩
  have hall : ∀ᶠ fuel in atTop, ∀ index ∈ Finset.range kind.dim,
      IeeeDouble.valueNorm rounding fuel (kind.quantityAt index)
        (kind.convertedAt rounding data index) = some (result index) := by
    rw [eventually_all_finset]
    exact fun index hindex => hresult index (Finset.mem_range.mp hindex)
  filter_upwards [hall] with fuel hfuel
  refine kind.getValues_of_some fun index hindex => ?_
  unfold valueAt
  exact congrArg (Option.map _) (hfuel index (Finset.mem_range.mpr hindex))

theorem getValues_of_not_wrap (kind : DataValue) {data : List (IeeeDouble K)}
    (hwrap : ¬kind.AnglesWrap rounding data) (fuel : ℕ) :
    kind.getValues rounding fuel data = .hangs := by
  unfold AnglesWrap at hwrap
  push Not at hwrap
  obtain ⟨index, hindex, hnot⟩ := hwrap
  refine kind.getValues_of_none hindex ?_
  unfold valueAt
  exact congrArg (Option.map _) (IeeeDouble.valueNorm_of_not_wraps hnot fuel)

/-! ### Without rounding -/

/-- The converted values, with the exact wrapping of angles. -/
def exactValues (kind : DataValue) (data : List (IeeeDouble K)) :
    List (QuantityValue (IeeeDouble K)) :=
  (List.range kind.dim).map fun index =>
    ⟨IeeeDouble.norm (kind.quantityAt index) (kind.convertedAt .exact data index),
      kind.quantityAt index⟩

/-- No angle of the data is infinite. -/
def AnglesBounded (kind : DataValue) (data : List (IeeeDouble K)) : Prop :=
  ∀ index < kind.dim, (kind.quantityAt index).angular = true →
    (kind.raw data index).isInfinite = false

theorem isInfinite_identityConvert (dim : ℕ) (flip : Bool) (index : ℕ)
    (value : IeeeDouble K) {factor : K} (hfactor : factor ≠ 0) :
    (identityConvert rounding dim flip index value factor).isInfinite = value.isInfinite := by
  have hneg : -factor ≠ 0 := neg_ne_zero.mpr hfactor
  unfold identityConvert
  split
  · split <;> exact IeeeDouble.isInfinite_scale ‹_› value
  · split <;> exact IeeeDouble.isInfinite_scale ‹_› value
  · split <;> exact IeeeDouble.isInfinite_scale ‹_› value
  · exact IeeeDouble.isInfinite_scale hfactor value

/-- A conversion neither makes a value infinite nor makes an infinite one
finite. -/
theorem isInfinite_convert (kind : DataValue) (index : ℕ) (value : IeeeDouble K) :
    (kind.convert .exact index value).isInfinite = value.isInfinite := by
  have hrad : Rounding.exact.round (mPi / 180 : K) ≠ 0 := (div_pos mPi_pos (by norm_num)).ne'
  have htesla : Rounding.exact.round (1 / 10000 : K) ≠ 0 := by norm_num
  unfold convert
  cases kind.converter with
  | identity => exact isInfinite_identityConvert _ _ _ _ one_ne_zero
  | tesla => exact isInfinite_identityConvert _ _ _ _ htesla
  | rad =>
      simp only [radConvert]
      split
      · split
        · rw [IeeeDouble.isInfinite_shift]
          exact isInfinite_identityConvert _ _ _ _ hrad
        · exact isInfinite_identityConvert _ _ _ _ hrad
      · exact isInfinite_identityConvert _ _ _ _ hrad
      · exact isInfinite_identityConvert _ _ _ _ hrad

theorem isInfinite_convertedAt (kind : DataValue) (data : List (IeeeDouble K)) (index : ℕ) :
    (kind.convertedAt .exact data index).isInfinite = (kind.raw data index).isInfinite :=
  kind.isInfinite_convert index _

theorem exists_exactValues (kind : DataValue) {data : List (IeeeDouble K)}
    (hbounded : kind.AnglesBounded data) :
    ∃ enough, ∀ fuel ≥ enough,
      kind.getValues .exact fuel data = .values (kind.exactValues data) := by
  have hvalues : ∀ᶠ fuel in atTop, ∀ index ∈ Finset.range kind.dim,
      IeeeDouble.valueNorm .exact fuel (kind.quantityAt index)
          (kind.convertedAt .exact data index) =
        some (IeeeDouble.norm (kind.quantityAt index) (kind.convertedAt .exact data index)) := by
    rw [eventually_all_finset]
    intro index hindex
    refine eventually_atTop.mpr (IeeeDouble.exists_valueNorm _ fun hangular => ?_)
    rw [isInfinite_convertedAt]
    exact hbounded index (Finset.mem_range.mp hindex) hangular
  obtain ⟨enough, henough⟩ := eventually_atTop.mp hvalues
  refine ⟨enough, fun fuel hfuel => kind.getValues_of_some fun index hindex => ?_⟩
  unfold valueAt
  exact congrArg (Option.map _) (henough fuel hfuel index (Finset.mem_range.mpr hindex))

theorem anglesWrap_exact_iff (kind : DataValue) (data : List (IeeeDouble K)) :
    kind.AnglesWrap .exact data ↔ kind.AnglesBounded data := by
  constructor
  · intro hwrap index hindex hangular
    obtain ⟨fuel, hsome⟩ := hwrap index hindex
    rw [← isInfinite_convertedAt]
    by_contra hinfinite
    exact hsome (IeeeDouble.valueNorm_of_infinite hangular (by simpa using hinfinite) fuel)
  · intro hbounded index hindex
    have hfinite : (kind.quantityAt index).angular = true →
        (kind.convertedAt .exact data index).isInfinite = false := by
      rw [isInfinite_convertedAt]
      exact hbounded index hindex
    obtain ⟨enough, henough⟩ := IeeeDouble.exists_valueNorm _ hfinite
    exact ⟨enough, by simp [henough enough le_rfl]⟩

/-! ### In `double` -/

/-- No angle is infinite or larger than the bound. -/
def AnglesWithin (bound : ℚ) (kind : DataValue) (data : List (IeeeDouble ℚ)) : Prop :=
  ∀ index < kind.dim, (kind.quantityAt index).angular = true →
    (kind.convertedAt .binary64 data index).Within bound

theorem representable_identityConvert (dim : ℕ) (flip : Bool) (index : ℕ)
    (value : IeeeDouble K) (factor : K) :
    (identityConvert rounding dim flip index value factor).Representable rounding := by
  unfold identityConvert
  split
  · split <;> exact IeeeDouble.representable_scale _ value
  · split <;> exact IeeeDouble.representable_scale _ value
  · split <;> exact IeeeDouble.representable_scale _ value
  · exact IeeeDouble.representable_scale _ value

theorem representable_convert (kind : DataValue) (index : ℕ) (value : IeeeDouble K) :
    (kind.convert rounding index value).Representable rounding := by
  have hidentity : ∀ dim flip factor,
      (identityConvert rounding dim flip index value factor).Representable rounding :=
    fun dim flip factor => representable_identityConvert dim flip index value factor
  unfold convert
  cases kind.converter with
  | identity => exact hidentity _ _ _
  | tesla => exact hidentity _ _ _
  | rad =>
      simp only [radConvert]
      split
      · split
        · exact IeeeDouble.representable_shift _ (hidentity _ _ _)
        · exact hidentity _ _ _
      · exact hidentity _ _ _
      · exact hidentity _ _ _

theorem anglesWrap_binary64_iff (kind : DataValue) (data : List (IeeeDouble ℚ)) :
    kind.AnglesWrap .binary64 data ↔ kind.AnglesWithin (2 ^ 56) data := by
  refine forall₂_congr fun index _ => ?_
  have hvalue : (kind.convertedAt .binary64 data index).Representable .binary64 :=
    kind.representable_convert index _
  by_cases hangular : (kind.quantityAt index).angular = true
  · rw [IeeeDouble.wraps_binary64_iff hangular hvalue]
    exact ⟨fun h _ => h, fun h => h hangular⟩
  · rw [Bool.not_eq_true] at hangular
    simp [IeeeDouble.wraps_of_not_angular hangular, hangular]

end DataValue

namespace DataPacket

/-- One value of each of the consecutive quantities of a known packet, and the
time if it is valid. -/
def quantities : DataPacket K → List Quantity
  | .unknown _ => []
  | .dateTime packet => if packet.flags &&& DateTime.validUtc ≠ 0 then [.ut] else []
  | .dataValue kind _ => (List.range kind.dim).map kind.quantityAt

def DateValid (calendar : Calendar) : DataPacket K → Prop
  | .dateTime packet =>
      packet.flags &&& DateTime.validUtc ≠ 0 →
        calendar.unixDay packet.year packet.month packet.day ≠ none
  | _ => True

def AnglesWrap (rounding : Rounding K) : DataPacket K → Prop
  | .dataValue kind data => kind.AnglesWrap rounding data
  | _ => True

def AnglesBounded : DataPacket K → Prop
  | .dataValue kind data => kind.AnglesBounded data
  | _ => True

def AnglesWithin (bound : ℚ) : DataPacket ℚ → Prop
  | .dataValue kind data => kind.AnglesWithin bound data
  | _ => True

theorem anglesWrap_exact_iff (packet : DataPacket K) :
    packet.AnglesWrap .exact ↔ packet.AnglesBounded := by
  cases packet with
  | dataValue kind data => exact kind.anglesWrap_exact_iff data
  | _ => exact Iff.rfl

theorem anglesWrap_binary64_iff (packet : DataPacket ℚ) :
    packet.AnglesWrap .binary64 ↔ packet.AnglesWithin (2 ^ 56) := by
  cases packet with
  | dataValue kind data => exact kind.anglesWrap_binary64_iff data
  | _ => exact Iff.rfl

variable {rounding : Rounding K} {calendar : Calendar}

theorem exists_getValues {packet : DataPacket K} (hdate : packet.DateValid calendar)
    (hwrap : packet.AnglesWrap rounding) :
    ∃ values : List (QuantityValue (IeeeDouble K)),
      values.map QuantityValue.quantity = packet.quantities ∧
        ∀ᶠ fuel in atTop, packet.getValues ⟨rounding, calendar, fuel⟩ = .values values := by
  cases packet with
  | unknown => exact ⟨[], rfl, .of_forall fun _ => rfl⟩
  | dateTime packet =>
      by_cases hvalid : packet.flags &&& DateTime.validUtc ≠ 0
      · obtain ⟨day, hday⟩ := Option.ne_none_iff_exists'.mp (hdate hvalid)
        obtain ⟨value, hvalue⟩ : ∃ value : K, composeTimeValue calendar packet.year
            packet.month packet.day packet.hour packet.minute packet.second
            (toSigned 32 packet.nano) = some value := by
          simp [composeTimeValue, hday]
        refine ⟨[⟨.finite value, .ut⟩], by simp [quantities, hvalid],
          .of_forall fun fuel => ?_⟩
        simp only [getValues, DateTime.getValues, if_pos hvalid, hvalue]
      · refine ⟨[], by simp only [quantities, if_neg hvalid, List.map_nil],
          .of_forall fun fuel => ?_⟩
        simp only [getValues, DateTime.getValues, if_neg hvalid]
  | dataValue kind data => exact kind.exists_getValues hwrap

theorem getValues_of_not_wrap {packet : DataPacket K} (hwrap : ¬packet.AnglesWrap rounding)
    (fuel : ℕ) : packet.getValues ⟨rounding, calendar, fuel⟩ = .hangs := by
  cases packet with
  | unknown => exact absurd trivial hwrap
  | dateTime => exact absurd trivial hwrap
  | dataValue kind data => exact kind.getValues_of_not_wrap hwrap fuel

end DataPacket

def stamped (stamp : K) (value : QuantityValue (IeeeDouble K)) :
    StampedQuantity (IeeeDouble K) :=
  ⟨⟨value.value, .finite stamp⟩, value.quantity⟩

theorem visit_of_values {α : Type*} {setting : Setting K} (stamp : K) {items : List α}
    {packet : α → DataPacket K} {values : α → List (QuantityValue (IeeeDouble K))}
    (hvalues : ∀ item ∈ items, (packet item).getValues setting = .values (values item)) :
    visit setting stamp (items.map packet) =
      (items.flatMap fun item => (values item).map (stamped stamp), .returned) := by
  induction items with
  | nil => rfl
  | cons item items ih =>
      rw [List.forall_mem_cons] at hvalues
      rw [List.map_cons, visit, hvalues.1]
      simp only [ih hvalues.2, List.flatMap_cons]
      rfl

/-- The visitor returns only when every packet has values. -/
theorem visit_ne_returned {setting : Setting K} (stamp : K) {packets : List (DataPacket K)}
    {packet : DataPacket K} (hmem : packet ∈ packets)
    (hhangs : packet.getValues setting = .hangs) :
    (visit setting stamp packets).2 ≠ .returned := by
  induction packets with
  | nil => cases hmem
  | cons first packets ih =>
      rw [visit]
      cases hfirst : first.getValues setting with
      | throws => exact Outcome.noConfusion
      | hangs => exact Outcome.noConfusion
      | values list =>
          rcases List.mem_cons.mp hmem with rfl | hmore
          · rw [hhangs] at hfirst
            cases hfirst
          · exact ih hmore

/-- The items are read one by one.  Each has a value for every quantity of its
kind, and the visitor ends with the values of all of them. -/
structure ReadsItems (rounding : Rounding K) (calendar : Calendar) (stamp : K) (flip : Bool)
    (items : List Item) : Prop where
  parsed : itemParser flip () (items.flatMap Item.encode) =
    ((), some (items.map fun item => (item.packet flip : DataPacket K), []))
  visited : ∃ values : Item → List (QuantityValue (IeeeDouble K)),
    (∀ item ∈ items, (values item).map QuantityValue.quantity =
      (item.packet flip : DataPacket K).quantities) ∧
    ∃ enough, ∀ fuel ≥ enough,
      (∀ item ∈ items,
        (item.packet flip).getValues ⟨rounding, calendar, fuel⟩ = .values (values item)) ∧
      visit ⟨rounding, calendar, fuel⟩ stamp (items.map fun item => item.packet flip) =
        (items.flatMap fun item => (values item).map (stamped stamp), .returned)

section Items

variable {rounding : Rounding K} {calendar : Calendar} {flip : Bool} {items : List Item}

theorem readsItems_of_wrap (stamp : K)
    (hdates : ∀ item ∈ items, (item.packet flip : DataPacket K).DateValid calendar)
    (hwrap : ∀ item ∈ items, (item.packet flip : DataPacket K).AnglesWrap rounding) :
    ReadsItems rounding calendar stamp flip items := by
  have hitems : ∀ item, ∃ values : List (QuantityValue (IeeeDouble K)), item ∈ items →
      values.map QuantityValue.quantity = (item.packet flip : DataPacket K).quantities ∧
        ∀ᶠ fuel in atTop,
          (item.packet flip).getValues ⟨rounding, calendar, fuel⟩ = .values values := by
    intro item
    by_cases hitem : item ∈ items
    · obtain ⟨values, hvalues⟩ :=
        DataPacket.exists_getValues (hdates item hitem) (hwrap item hitem)
      exact ⟨values, fun _ => hvalues⟩
    · exact ⟨[], fun h => absurd h hitem⟩
  choose values hvalues using hitems
  have hall : ∀ᶠ fuel in atTop, ∀ item ∈ {item | item ∈ items},
      (item.packet flip).getValues ⟨rounding, calendar, fuel⟩ = .values (values item) := by
    rw [eventually_all_finite items.finite_toSet]
    exact fun item hitem => (hvalues item hitem).2
  obtain ⟨enough, henough⟩ := eventually_atTop.mp hall
  exact ⟨itemParser_encode flip items, values, fun item hitem => (hvalues item hitem).1, enough,
    fun fuel hfuel => ⟨henough fuel hfuel, visit_of_values stamp (henough fuel hfuel)⟩⟩

theorem not_readsItems (stamp : K) {item : Item} (hitem : item ∈ items)
    (hwrap : ¬(item.packet flip : DataPacket K).AnglesWrap rounding) :
    ¬ReadsItems rounding calendar stamp flip items := by
  intro hreads
  obtain ⟨values, -, enough, henough⟩ := hreads.visited
  have hhangs : (item.packet flip).getValues ⟨rounding, calendar, enough⟩ = .hangs :=
    DataPacket.getValues_of_not_wrap hwrap enough
  have hmem : item.packet flip ∈ items.map fun item => (item.packet flip : DataPacket K) :=
    List.mem_map.mpr ⟨item, hitem, rfl⟩
  exact visit_ne_returned stamp hmem hhangs (congrArg Prod.snd (henough enough le_rfl).2)

theorem readsItems_iff_wrap (stamp : K)
    (hdates : ∀ item ∈ items, (item.packet flip : DataPacket K).DateValid calendar) :
    ReadsItems rounding calendar stamp flip items ↔
      ∀ item ∈ items, (item.packet flip : DataPacket K).AnglesWrap rounding := by
  constructor
  · intro hreads item hitem
    by_contra hwrap
    exact not_readsItems stamp hitem hwrap hreads
  · exact readsItems_of_wrap stamp hdates

end Items

/-- All items of a message are read, with their values, unless an angle is
infinite or too large. -/
theorem readsItems_iff (calendar : Calendar) (stamp : ℚ) (flip : Bool) (items : List Item)
    (hdates : ∀ item ∈ items, (item.packet flip : DataPacket ℚ).DateValid calendar) :
    ReadsItems .binary64 calendar stamp flip items ↔
      ∀ item ∈ items, (item.packet flip : DataPacket ℚ).AnglesWithin (2 ^ 56) := by
  rw [readsItems_iff_wrap stamp hdates]
  exact forall₂_congr fun item _ => DataPacket.anglesWrap_binary64_iff _

/-- 22 April 2020, valid. -/
def dateItem : Item :=
  ⟨0x1010, [0, 0, 0, 0, 0x07, 0xE4, 4, 22, 0, 0, 0, 4], by decide⟩

/-- Acceleration of the wrong length. -/
def shortItem : Item := ⟨0x4020, [1, 2], by decide⟩

/-- Angles of 540, -90 and 0.5 degrees. -/
def turnedItem : Item :=
  ⟨0x2030, [0x44, 0x07, 0, 0, 0xC2, 0xB4, 0, 0, 0x3F, 0, 0, 0], by decide⟩

theorem readsItems_iff_three :
    ReadsItems .binary64 Calendar.gregorian (0 : ℚ) true [dateItem, shortItem, turnedItem] := by
  have hdates : ∀ item ∈ [dateItem, shortItem, turnedItem],
      (item.packet true : DataPacket ℚ).DateValid Calendar.gregorian := by
    have hdate : (dateItem.packet true : DataPacket ℚ).DateValid Calendar.gregorian := by
      intro _
      decide
    rintro item (_ | ⟨_, _ | ⟨_, _ | ⟨_, hnil⟩⟩⟩)
    · exact hdate
    · exact trivial
    · exact trivial
    · cases hnil
  refine (readsItems_iff Calendar.gregorian 0 true _ hdates).mpr ?_
  have hturned : (turnedItem.packet true : DataPacket ℚ).AnglesWithin (2 ^ 56) := by
    change ∀ index < 3, _ → (DataValue.convertedAt .binary64 _ _ index).Within (2 ^ 56)
    decide +kernel
  rintro item (_ | ⟨_, _ | ⟨_, _ | ⟨_, hnil⟩⟩⟩)
  · exact trivial
  · exact trivial
  · exact hturned
  · cases hnil

/-- A roll of 2^128 - 2^104 degrees, the largest finite `float`. -/
def largeItem : Item :=
  ⟨0x2030, [0x7F, 0x7F, 0xFF, 0xFF, 0, 0, 0, 0, 0, 0, 0, 0], by decide⟩

theorem not_readsItems_large :
    ¬∀ items : List Item,
      (∀ item ∈ items,
        (item.packet false : DataPacket ℚ).DateValid Calendar.gregorian) →
      ReadsItems .binary64 Calendar.gregorian (0 : ℚ) false items := by
  intro hall
  refine not_readsItems 0 (List.mem_singleton.mpr rfl) ?_ (hall [largeItem] ?_)
  · rw [DataPacket.anglesWrap_binary64_iff]
    intro hwithin
    have hroll := hwithin 0 (by decide) (by decide)
    revert hroll
    decide +kernel
  · intro item hitem
    rw [List.mem_singleton.mp hitem]
    exact trivial

end SensorHub.Xsens
