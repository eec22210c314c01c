import UDataPacketService.PacketConverter
import UDataPacketService.JoinedFields

/-! What the name of a stream tells of its identifier, and when a client that asks
for a stream by the identifier of its source asks for the converted packets. A
name joins its fields with dots, and the converter lets dots inside a field pass. -/
namespace UDataPacketService

def dots (s : String) : ℕ := s.toList.count '.'

theorem count_trim {c : Char} (h : isSpace c = false) (s : List Char) :
    (trim s).count c = s.count c := by
  have dropped (s : List Char) : (s.dropWhile isSpace).count c = s.count c := by
    have absent : c ∉ s.takeWhile isSpace := fun member =>
      Bool.false_ne_true (h.symm.trans (List.mem_takeWhile_imp member))
    conv_rhs => rw [← List.takeWhile_append_dropWhile (p := isSpace) (l := s)]
    rw [List.count_append, List.count_eq_zero.mpr absent, Nat.zero_add]
  rw [trim, dropped, List.rdropWhile, List.count_reverse, dropped, List.count_reverse]

/-- The branch without a transformation is a transformation that changes nothing. -/
theorem toList_trimAndCapitalize (s : String) :
    (trimAndCapitalize s).toList = (trim s.toList).map Char.toUpper := by
  simp only [trimAndCapitalize]
  split
  · rename_i upper
    rw [String.toList_ofList]
    refine (List.map_id' _).symm.trans (List.map_congr_left fun c member => ?_)
    have := List.all_eq_true.mp upper c member
    exact (Char.toUpper_eq_of_not_isLower (Char.not_isLower_of_isUpper this)).symm
  · rw [String.toList_ofList]

theorem toUpper_eq_dot (c : Char) : c.toUpper = '.' ↔ c = '.' := by
  by_cases lower : c.isLower = true
  · have letter : c.toUpper.isAlpha = true := by
      rw [Char.isAlpha_toUpper_eq_isAlpha, Char.isAlpha, lower, Bool.or_true]
    refine iff_of_false ?_ ?_
    · intro dot
      rw [dot] at letter
      revert letter
      decide
    · rintro rfl
      revert lower
      decide
  · rw [Char.toUpper_eq_of_not_isLower lower]

theorem dots_trimAndCapitalize (s : String) : dots (trimAndCapitalize s) = dots s := by
  rw [dots, dots, toList_trimAndCapitalize, ← count_trim (c := '.') (by decide) s.toList,
    List.count, List.countP_map]
  refine List.countP_congr fun c _ => ?_
  simp only [Function.comp_apply, beq_iff_eq, toUpper_eq_dot]

theorem dropWhile_isSpace_eq_self (s : List Char) :
    s.dropWhile isSpace = s ↔ ∀ c ∈ s.head?, isSpace c = false := by
  cases s with
  | nil => exact iff_of_true rfl nofun
  | cons c s =>
      have first : (∀ d ∈ (c :: s).head?, isSpace d = false) ↔ isSpace c = false := by simp
      rw [first, List.dropWhile_cons]
      split
      · rename_i space
        refine iff_of_false (fun same => ?_) (fun not => Bool.false_ne_true (not.symm.trans space))
        have := congrArg List.length same
        have := (s.dropWhile_sublist isSpace).length_le
        rw [List.length_cons] at *
        omega
      · rename_i other
        exact iff_of_true rfl (Bool.eq_false_iff.mpr other)

theorem trim_eq_self (s : List Char) :
    trim s = s ↔ (∀ c ∈ s.head?, isSpace c = false) ∧ ∀ c ∈ s.getLast?, isSpace c = false := by
  have back : s.rdropWhile isSpace = s ↔ ∀ c ∈ s.getLast?, isSpace c = false := by
    rw [List.rdropWhile, List.reverse_eq_iff, dropWhile_isSpace_eq_self, List.head?_reverse]
  rw [← back, ← dropWhile_isSpace_eq_self, trim]
  refine ⟨fun same => ?_, fun ⟨front, back⟩ => by rw [back, front]⟩
  have shrink := ((s.rdropWhile isSpace).dropWhile_sublist isSpace).length_le
  rw [same] at shrink
  have back := (s.rdropWhile_prefix isSpace).sublist.eq_of_length_le shrink
  rw [back] at same
  exact ⟨same, back⟩

/-- No space at an end and no letter in lower case. -/
structure Plain (s : String) : Prop where
  front : ∀ c ∈ s.toList.head?, isSpace c = false
  back : ∀ c ∈ s.toList.getLast?, isSpace c = false
  upper : ∀ c ∈ s.toList, c.isLower = false

theorem trimAndCapitalize_eq_self (s : String) : trimAndCapitalize s = s ↔ Plain s := by
  rw [← String.toList_inj, toList_trimAndCapitalize]
  constructor
  · intro same
    have shrink : s.toList.length ≤ (trim s.toList).length := by
      conv_lhs => rw [← same, List.length_map]
    have trimmed : trim s.toList = s.toList :=
      (((s.toList.rdropWhile isSpace).dropWhile_sublist isSpace).trans
        (s.toList.rdropWhile_prefix isSpace).sublist).eq_of_length_le shrink
    obtain ⟨front, back⟩ := (trim_eq_self s.toList).mp trimmed
    refine ⟨front, back, fun c member => ?_⟩
    rw [← same] at member
    obtain ⟨d, -, rfl⟩ := List.mem_map.mp member
    exact Char.isLower_toUpper_eq_false d
  · rintro ⟨front, back, upper⟩
    rw [(trim_eq_self s.toList).mpr ⟨front, back⟩]
    refine (List.map_congr_left fun c member => ?_).trans (List.map_id' _)
    exact Char.toUpper_eq_of_not_isLower (Bool.eq_false_iff.mp (upper c member))

namespace StreamIdentifier

/-- The fields that `toName` joins with dots. -/
def fields (i : StreamIdentifier) : List String :=
  [i.network, i.station, i.channel] ++ if i.locationCode = "" then [] else [i.locationCode]

theorem fields_of_location {i : StreamIdentifier} (some_ : i.locationCode ≠ "") :
    i.fields = [i.network, i.station, i.channel, i.locationCode] := by
  rw [fields, if_neg some_]
  rfl

theorem fields_mk {network station channel locationCode : String} (some_ : locationCode ≠ "") :
    fields ⟨some network, some station, some channel, some locationCode⟩ =
      [network, station, channel, locationCode] :=
  fields_of_location some_

theorem toList_toName (i : StreamIdentifier) :
    i.toName.toList = ['.'].intercalate (i.fields.map String.toList) := by
  simp only [toName, fields]
  split <;> simp [List.intercalate_cons_cons, List.intercalate_singleton]

theorem toName_eq_iff {i j : StreamIdentifier} :
    i.toName = j.toName ↔ ['.'].intercalate (i.fields.map String.toList) =
      ['.'].intercalate (j.fields.map String.toList) := by
  rw [← String.toList_inj, toList_toName, toList_toName]

/-- The two agree on network, station, channel and location code. -/
structure Agrees (i j : StreamIdentifier) : Prop where
  network : i.network = j.network
  station : i.station = j.station
  channel : i.channel = j.channel
  locationCode : i.locationCode = j.locationCode

theorem Agrees.toName {i j : StreamIdentifier} (h : i.Agrees j) : i.toName = j.toName := by
  simp only [StreamIdentifier.toName, h.network, h.station, h.channel, h.locationCode]

theorem agrees_iff {i j : StreamIdentifier} (hi : i.locationCode ≠ "") (hj : j.locationCode ≠ "") :
    i.Agrees j ↔ i.fields = j.fields := by
  rw [fields_of_location hi, fields_of_location hj]
  constructor
  · rintro ⟨network, station, channel, locationCode⟩
    rw [network, station, channel, locationCode]
  · intro same
    simp only [List.cons.injEq, and_true] at same
    exact ⟨same.1, same.2.1, same.2.2.1, same.2.2.2⟩

end StreamIdentifier

namespace ImportAPI.StreamIdentifier
variable {i j : ImportAPI.StreamIdentifier} {a b : UDataPacketService.StreamIdentifier}

def fields (i : ImportAPI.StreamIdentifier) : List String :=
  [i.network, i.station, i.channel, i.locationCode]

def dotsInside (i : ImportAPI.StreamIdentifier) : List ℕ := i.fields.map dots

def convertedFields (i : ImportAPI.StreamIdentifier) : List String :=
  [trimAndCapitalize i.network, trimAndCapitalize i.station, trimAndCapitalize i.channel,
    if trimAndCapitalize i.locationCode = "" then "--" else trimAndCapitalize i.locationCode]

/-- The codes between the dots, of all converted fields in order. -/
def codes (i : ImportAPI.StreamIdentifier) : List (List Char) :=
  JoinedFields.pieces '.' (i.convertedFields.map String.toList)

theorem map_convertedFields_ne_nil (i : ImportAPI.StreamIdentifier) :
    i.convertedFields.map String.toList ≠ [] := by
  rw [convertedFields, List.map_cons]
  exact List.cons_ne_nil _ _

theorem fields_of_convert (h : i.convert = .ok a) :
    a.locationCode ≠ "" ∧ a.fields = i.convertedFields := by
  simp only [convert] at h
  split_ifs at h with network station channel blank
  · obtain rfl := Except.ok.inj h
    have some_ : "--" ≠ "" := by decide
    refine ⟨some_, ?_⟩
    rw [convertedFields, if_pos blank]
    exact UDataPacketService.StreamIdentifier.fields_mk some_
  · obtain rfl := Except.ok.inj h
    refine ⟨blank, ?_⟩
    rw [convertedFields, if_neg blank]
    exact UDataPacketService.StreamIdentifier.fields_mk blank

theorem map_dots_convertedFields (i : ImportAPI.StreamIdentifier) :
    i.convertedFields.map dots = i.dotsInside := by
  have blank : dots (if trimAndCapitalize i.locationCode = "" then "--"
      else trimAndCapitalize i.locationCode) = dots i.locationCode := by
    rw [← dots_trimAndCapitalize i.locationCode]
    split
    · rename_i empty
      rw [empty]
      rfl
    · rfl
  simp only [convertedFields, dotsInside, fields, List.map_cons, List.map_nil,
    dots_trimAndCapitalize, blank]

theorem toName_eq_iff_joined (hi : i.convert = .ok a) (hj : j.convert = .ok b) :
    a.toName = b.toName ↔ ['.'].intercalate (i.convertedFields.map String.toList) =
      ['.'].intercalate (j.convertedFields.map String.toList) := by
  rw [UDataPacketService.StreamIdentifier.toName_eq_iff, (fields_of_convert hi).2,
    (fields_of_convert hj).2]

theorem toName_eq_iff_codes (hi : i.convert = .ok a) (hj : j.convert = .ok b) :
    a.toName = b.toName ↔ i.codes = j.codes :=
  (toName_eq_iff_joined hi hj).trans (JoinedFields.intercalate_eq_iff '.'
    i.map_convertedFields_ne_nil j.map_convertedFields_ne_nil)

theorem agrees_of_convertedFields (hi : i.convert = .ok a) (hj : j.convert = .ok b)
    (same : i.convertedFields.map String.toList = j.convertedFields.map String.toList) :
    a.Agrees b := by
  obtain ⟨someA, fieldsA⟩ := fields_of_convert hi
  obtain ⟨someB, fieldsB⟩ := fields_of_convert hj
  rw [UDataPacketService.StreamIdentifier.agrees_iff someA someB, fieldsA, fieldsB]
  exact (List.map_injective_iff.mpr fun _ _ => String.toList_inj.mp) same

/-- With as many dots inside each field, the names tell the fields. -/
theorem agrees_of_toName (hi : i.convert = .ok a) (hj : j.convert = .ok b)
    (same : i.dotsInside = j.dotsInside) (names : a.toName = b.toName) : a.Agrees b := by
  rw [← map_dots_convertedFields, ← map_dots_convertedFields] at same
  refine agrees_of_convertedFields hi hj
    (JoinedFields.eq_of_counts ?_ ((toName_eq_iff_joined hi hj).mp names))
  rw [List.map_map, List.map_map]
  exact same

theorem agrees_of_no_dots (hi : i.convert = .ok a) (hj : j.convert = .ok b)
    (clean : ∀ n ∈ i.dotsInside, n = 0) : a.toName = b.toName ↔ a.Agrees b := by
  refine ⟨fun names => ?_, fun h => h.toName⟩
  have length : (i.convertedFields.map String.toList).length =
      (j.convertedFields.map String.toList).length := by
    simp only [List.length_map, convertedFields, List.length_cons, List.length_nil]
  refine agrees_of_convertedFields hi hj (JoinedFields.eq_of_no_separators
    (fun field member => ?_) length ((toName_eq_iff_joined hi hj).mp names))
  obtain ⟨code, there, rfl⟩ := List.mem_map.mp member
  have none_ : dots code = 0 := by
    refine clean _ ?_
    rw [← map_dots_convertedFields]
    exact List.mem_map_of_mem there
  exact List.count_eq_zero.mp none_

end ImportAPI.StreamIdentifier

/-- The names of two converted identifiers tell whether the identifiers agree, unless
the two have the same codes between the dots and differ in where the fields end. -/
theorem names_tell_streams_apart_iff {i j : ImportAPI.StreamIdentifier} {a b : StreamIdentifier}
    (hi : i.convert = .ok a) (hj : j.convert = .ok b) :
    (a.toName = b.toName ↔ a.Agrees b) ↔ (i.dotsInside = j.dotsInside ∨ i.codes ≠ j.codes) := by
  obtain ⟨someA, fieldsA⟩ := ImportAPI.StreamIdentifier.fields_of_convert hi
  obtain ⟨someB, fieldsB⟩ := ImportAPI.StreamIdentifier.fields_of_convert hj
  have agree := StreamIdentifier.agrees_iff someA someB
  constructor
  · intro tells
    by_cases same : i.codes = j.codes
    · refine .inl ?_
      have h := agree.mp (tells.mp
        ((ImportAPI.StreamIdentifier.toName_eq_iff_codes hi hj).mpr same))
      rw [← i.map_dots_convertedFields, ← j.map_dots_convertedFields, ← fieldsA, ← fieldsB, h]
    · exact .inr same
  · rintro (counts | differ)
    · exact ⟨ImportAPI.StreamIdentifier.agrees_of_toName hi hj counts, fun h => h.toName⟩
    · have apart : a.toName ≠ b.toName := fun same =>
        differ ((ImportAPI.StreamIdentifier.toName_eq_iff_codes hi hj).mp same)
      exact iff_of_false apart (fun h => apart h.toName)

def dottedIdentifier (network station : String) : ImportAPI.StreamIdentifier :=
  ⟨some network, some station, some "HHZ", some "01"⟩

/-- The dot of the network `A.B` reads as the end of the network `A`. -/
theorem dotted_network_merged :
    (dottedIdentifier "A.B" "C").convert = .ok ⟨some "A.B", some "C", some "HHZ", some "01"⟩ ∧
      (dottedIdentifier "A" "B.C").convert = .ok ⟨some "A", some "B.C", some "HHZ", some "01"⟩ ∧
      ¬(StreamIdentifier.toName ⟨some "A.B", some "C", some "HHZ", some "01"⟩ =
          StreamIdentifier.toName ⟨some "A", some "B.C", some "HHZ", some "01"⟩ ↔
        StreamIdentifier.Agrees ⟨some "A.B", some "C", some "HHZ", some "01"⟩
          ⟨some "A", some "B.C", some "HHZ", some "01"⟩) := by
  refine ⟨by decide +kernel, by decide +kernel, fun tells => ?_⟩
  have network := (tells.mp (by decide +kernel)).network
  revert network
  decide +kernel

/-- A dot inside a code does no harm where the codes differ. -/
theorem names_tell_dotted_streams_apart :
    StreamIdentifier.toName ⟨some "A.B", some "C", some "HHZ", some "01"⟩ =
        StreamIdentifier.toName ⟨some "A", some "B.D", some "HHZ", some "01"⟩ ↔
      StreamIdentifier.Agrees ⟨some "A.B", some "C", some "HHZ", some "01"⟩
        ⟨some "A", some "B.D", some "HHZ", some "01"⟩ := by
  have differ : (dottedIdentifier "A.B" "C").codes ≠ (dottedIdentifier "A" "B.D").codes := by
    decide +kernel
  exact (names_tell_streams_apart_iff (by decide +kernel) (by decide +kernel)).mpr (.inr differ)

namespace ImportAPI.StreamIdentifier
variable {i : ImportAPI.StreamIdentifier}

def selection (i : ImportAPI.StreamIdentifier) : UDataPacketService.StreamIdentifier where
  networkField := i.networkField
  stationField := i.stationField
  channelField := i.channelField
  locationCodeField := i.locationCodeField

/-- Without a location code the name of the selection has a dot less than it needs. -/
theorem location_of_joined
    (named : ['.'].intercalate (i.selection.fields.map String.toList) =
      ['.'].intercalate (i.convertedFields.map String.toList)) : i.locationCode ≠ "" := by
  intro empty
  have fields : i.selection.fields = [i.network, i.station, i.channel] := by
    rw [UDataPacketService.StreamIdentifier.fields,
      if_pos (show i.selection.locationCode = "" from empty)]
    rfl
  rw [fields] at named
  have total := JoinedFields.sum_counts_of_intercalate_eq (List.cons_ne_nil _ _)
    i.map_convertedFields_ne_nil named
  have counts : ((i.convertedFields.map String.toList).map (List.count '.')).sum =
      i.dotsInside.sum := by
    rw [List.map_map, ← map_dots_convertedFields]
    rfl
  rw [counts] at total
  simp only [dotsInside, ImportAPI.StreamIdentifier.fields, convertedFields, List.map_cons,
    List.map_nil, List.sum_cons, List.sum_nil, List.length_cons, List.length_nil, dots] at total
  omega

theorem fields_eq_convertedFields_iff : i.fields = i.convertedFields ↔
    (Plain i.network ∧ Plain i.station ∧ Plain i.channel ∧ Plain i.locationCode) ∧
      i.locationCode ≠ "" := by
  simp only [fields, convertedFields, List.cons.injEq, and_true, ← trimAndCapitalize_eq_self]
  constructor
  · rintro ⟨network, station, channel, locationCode⟩
    have filled : trimAndCapitalize i.locationCode ≠ "" := by
      intro blank
      rw [if_pos blank] at locationCode
      rw [locationCode] at blank
      revert blank
      decide
    rw [if_neg filled] at locationCode
    exact ⟨⟨network.symm, station.symm, channel.symm, locationCode.symm⟩,
      fun empty => filled (locationCode.symm.trans empty)⟩
  · rintro ⟨⟨network, station, channel, locationCode⟩, some_⟩
    rw [locationCode, if_neg some_]
    exact ⟨network.symm, station.symm, channel.symm, rfl⟩

end ImportAPI.StreamIdentifier

/-- A selection names the stream of the converted packets exactly when the converter
has nothing to trim, to capitalize or to fill in. -/
theorem selection_named_alike_iff {i : ImportAPI.StreamIdentifier} {a : StreamIdentifier}
    (h : i.convert = .ok a) :
    i.selection.toName = a.toName ↔
      (Plain i.network ∧ Plain i.station ∧ Plain i.channel ∧ Plain i.locationCode) ∧
        i.locationCode ≠ "" := by
  have whole (some_ : i.locationCode ≠ "") : i.selection.fields = i.fields :=
    StreamIdentifier.fields_of_location some_
  rw [← ImportAPI.StreamIdentifier.fields_eq_convertedFields_iff, StreamIdentifier.toName_eq_iff,
    (ImportAPI.StreamIdentifier.fields_of_convert h).2]
  constructor
  · intro named
    rw [whole (ImportAPI.StreamIdentifier.location_of_joined named)] at named
    refine (List.map_injective_iff.mpr fun _ _ => String.toList_inj.mp) ?_
    refine JoinedFields.eq_of_counts ?_ named
    rw [List.map_map, List.map_map]
    exact i.map_dots_convertedFields.symm
  · intro same
    rw [whole (ImportAPI.StreamIdentifier.fields_eq_convertedFields_iff.mp same).2, same]

/-- The source names its codes in lower case, and so does the client that asks for them. -/
theorem lower_case_selection_missed :
    ImportAPI.StreamIdentifier.convert ⟨some "uu", some "cwu", some "hhz", some "01"⟩ =
        .ok ⟨some "UU", some "CWU", some "HHZ", some "01"⟩ ∧
      (ImportAPI.StreamIdentifier.selection ⟨some "uu", some "cwu", some "hhz", some "01"⟩).toName ≠
        StreamIdentifier.toName ⟨some "UU", some "CWU", some "HHZ", some "01"⟩ :=
  ⟨by decide +kernel, by decide +kernel⟩

/-- An unset location code is filled in alike on both sides. -/
theorem selection_named_alike_unset_location :
    (ImportAPI.StreamIdentifier.selection ⟨some "UU", some "CWU", some "HHZ", none⟩).toName =
      StreamIdentifier.toName ⟨some "UU", some "CWU", some "HHZ", some "--"⟩ := by
  have converted : ImportAPI.StreamIdentifier.convert ⟨some "UU", some "CWU", some "HHZ", none⟩ =
      .ok ⟨some "UU", some "CWU", some "HHZ", some "--"⟩ := by
    decide +kernel
  have plain (s : String) (trimmed : trimAndCapitalize s = s) : Plain s :=
    (trimAndCapitalize_eq_self s).mp trimmed
  exact (selection_named_alike_iff converted).mpr
    ⟨⟨plain _ (by decide +kernel), plain _ (by decide +kernel), plain _ (by decide +kernel),
      plain _ (by decide +kernel)⟩, by decide +kernel⟩

end UDataPacketService
