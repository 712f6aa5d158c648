import ServerSentEvents.Proofs.Emission
import ServerSentEvents.Proofs.FieldGrammar
import ServerSentEvents.Proofs.JsonLines

/-!
# Delays that lines ask for

A line that asks for a delay names a number of milliseconds, and this number is what is printed for
the delay: nothing is lost by splitting it into seconds and nanoseconds, and the bound that printing
puts on it is never reached by an event that came out of a stream.
-/

namespace ServerSentEvents

/-! ## Reading -/

namespace Field

/-- The line that asks for a delay. -/
def retryLine (value : Bytes) : Bytes :=
  Name.retry.bytes ++ Bytes.colon :: Bytes.space :: value

/-- The line is accepted if its value is a numeral whose number fits into a word. -/
theorem ofLine?_retryLine_eq_some_iff {value : Bytes} {field : Field} :
    ofLine? (retryLine value) = some field ↔
      Decimal.IsNumeral value ∧
        ∃ hfits : Decimal.value value < wordLimit,
          field = .retry (.ofMillis (Decimal.value value) hfits) := by
  rw [retryLine, ofLine?_append .retry (.space value), ofName, Option.map_eq_some_iff]
  simp only [retryDelay?_eq_some_iff]
  constructor
  · rintro ⟨delay, ⟨hvalue, hfits, rfl⟩, rfl⟩
    exact ⟨hvalue, hfits, rfl⟩
  · rintro ⟨hvalue, hfits, rfl⟩
    exact ⟨_, ⟨hvalue, hfits, rfl⟩, rfl⟩

theorem toMillis_of_retryLine {value : Bytes} {delay : Delay}
    (hline : ofLine? (retryLine value) = some (.retry delay)) :
    Decimal.IsNumeral value ∧ delay.IsWhole ∧ delay.toMillis = Decimal.value value := by
  obtain ⟨hvalue, hfits, hdelay⟩ := ofLine?_retryLine_eq_some_iff.mp hline
  obtain rfl := Field.retry.inj hdelay
  exact ⟨hvalue, Delay.isWhole_ofMillis _ hfits, Delay.toMillis_ofMillis _ hfits⟩

end Field

/-! ## Printing -/

namespace PrintFormat

/-- What stands before the number of a delay where it is printed. -/
def retryLabel : PrintFormat → String
  | json => "\"retry_ms\":"
  | text => "retry: "

/-- What stands behind the number. -/
def retryStop : PrintFormat → String
  | json => ","
  | text => "\n"

end PrintFormat

namespace Event

/-- A delay is printed between two texts that do not depend on it and that make up what is printed
where there is none. -/
theorem exists_printed_eq_append (e : Event) (format : PrintFormat) :
    ∃ before after : List Char,
      ({ e with retry := none } : Event).printed format = String.ofList (before ++ after) ∧
        ∀ delay, ({ e with retry := some delay } : Event).printed format =
          String.ofList (before ++ format.retryLabel.toList ++
            (toString delay.toMillis).toList ++ format.retryStop.toList ++ after) := by
  cases format with
  | text =>
      refine ⟨(e.event.map fun name => fieldLine "event" name.toList).getD [] ++
          (e.id.map fun id => fieldLine "id" id.toList).getD [],
        (Text.pieces '\n' e.data.toList).flatMap (fieldLine "data") ++ ['\n'], ?_, ?_⟩
      · simp [printed, toStream, retryMillis]
      · intro delay
        simp [printed, toStream, retryMillis, fieldLine, PrintFormat.retryLabel,
          PrintFormat.retryStop]
  | json =>
      let before : List (Option String × JsonValue) :=
        (e.event.map fun name => (some "event", JsonValue.ofString name)).toList ++
          (e.id.map fun id => (some "id", JsonValue.ofString id)).toList
      let data : Option String × JsonValue := (some "data", JsonValue.ofString e.data)
      refine ⟨'\x7b' :: before.flatMap fun member => JsonValue.memberChars member ++ [','],
        JsonValue.memberChars data ++ ['\x7d', '\n'], ?_, ?_⟩
      · have hmembers : ({ e with retry := none } : Event).printedMembers = before ++ [data] := by
          simp [printedMembers, before, data]
        rw [printed, toPrintedJson_eq, hmembers, JsonValue.compactChars,
          JsonValue.compactMembers_append_cons, JsonValue.compactMembers_singleton]
        simp
      · intro delay
        let millis : Option String × JsonValue := (some "retry_ms", JsonValue.ofNat delay.toMillis)
        have hmembers : ({ e with retry := some delay } : Event).printedMembers =
            before ++ millis :: [data] := by
          simp [printedMembers, before, data, millis, Delay.toMillis]
        have hmillis : JsonValue.memberChars millis =
            PrintFormat.json.retryLabel.toList ++ (toString delay.toMillis).toList := by
          have hlabel : PrintFormat.json.retryLabel.toList =
              JsonValue.literal "retry_ms" ++ [':'] := by decide
          rw [hlabel, List.append_assoc]
          rfl
        rw [printed, toPrintedJson_eq, hmembers, JsonValue.compactChars,
          JsonValue.compactMembers_append_cons, JsonValue.compactMembers_cons_cons, hmillis,
          JsonValue.compactMembers_singleton]
        simp [PrintFormat.retryStop]

end Event

/-! ## From the line to the number that is printed -/

/-- A line asks for a delay exactly if its value is a numeral below the bound of words, and the
delay is that many milliseconds, whatever zeros the numeral begins with.  In either form an event is
printed with this number, without those zeros, at the place of its delay.  The delays of events that
come out of a stream are whole milliseconds and never reach the bound that printing puts on them, and
two lines ask for one delay exactly if their values are numerals of one number. -/
theorem Field.retryLine_exact :
    (∀ value field, ofLine? (retryLine value) = some field ↔
      Decimal.IsNumeral value ∧ Decimal.value value < wordLimit ∧
        ∃ delay, field = .retry delay ∧ delay.seconds = Decimal.value value / 1000 ∧
          delay.nanos = Decimal.value value % 1000 * 1000000) ∧
    (∀ zeros value, Decimal.IsNumeral value →
      ofLine? (retryLine (List.replicate zeros 0x30 ++ value)) = ofLine? (retryLine value)) ∧
    (∀ (e : Event) (format : PrintFormat), ∃ before after : Bytes,
      Utf8.encode (({ e with retry := none } : Event).printed format) = before ++ after ∧
        ∀ value delay, ofLine? (retryLine value) = some (.retry delay) →
          Utf8.encode (({ e with retry := some delay } : Event).printed format) =
            before ++ Utf8.encode format.retryLabel ++ Decimal.shortest value ++
              Utf8.encode format.retryStop ++ after) ∧
    (∀ (limits : LineLimits) (hpos : 0 < limits.maxSize) (events : List Event),
      Emitted limits hpos events → ∀ e ∈ events, ∀ delay ∈ e.retry,
        delay.wholeMillis < wordLimit ∧ delay.toMillis = delay.wholeMillis ∧
          ∃ value, ofLine? (retryLine value) = some (.retry delay)) ∧
    ∀ value other delay otherDelay,
      ofLine? (retryLine value) = some (.retry delay) →
        ofLine? (retryLine other) = some (.retry otherDelay) →
          (delay = otherDelay ↔ Decimal.value value = Decimal.value other) := by
  refine ⟨?_, ?_, ?_, ?_, ?_⟩
  · intro value field
    rw [ofLine?_retryLine_eq_some_iff]
    constructor
    · rintro ⟨hvalue, hfits, rfl⟩
      exact ⟨hvalue, hfits, _, rfl, rfl, rfl⟩
    · rintro ⟨hvalue, hfits, ⟨seconds, nanos, _, _⟩, rfl, rfl, rfl⟩
      exact ⟨hvalue, hfits, rfl⟩
  · intro zeros value hvalue
    have hzeros : Decimal.IsNumeral (List.replicate zeros 0x30 ++ value) :=
      hvalue.zeros_append zeros
    ext field
    rw [ofLine?_retryLine_eq_some_iff, ofLine?_retryLine_eq_some_iff]
    simp only [hvalue, hzeros, Decimal.value_zeros_append]
  · intro e format
    obtain ⟨before, after, hnone, hsome⟩ := e.exists_printed_eq_append format
    refine ⟨before.flatMap String.utf8EncodeChar, after.flatMap String.utf8EncodeChar, ?_, ?_⟩
    · rw [hnone, Utf8.encode_ofList, List.flatMap_append]
    · intro value delay hline
      obtain ⟨hvalue, -, hmillis⟩ := toMillis_of_retryLine hline
      rw [hsome, hmillis, ← Decimal.encode_toString_value hvalue, Utf8.encode_ofList]
      simp only [List.flatMap_append]
      rfl
  · intro limits hpos events hevents e he delay hdelay
    have hwhole := (hevents.printable e he).retry delay hdelay
    have hplain : Field.Plain (.retry delay) := hwhole
    exact ⟨hwhole.2, hwhole.toMillis_eq, _, ofLine?_line hplain⟩
  · intro value other delay otherDelay hline hother
    obtain ⟨-, hwhole, hmillis⟩ := toMillis_of_retryLine hline
    obtain ⟨-, hotherWhole, hotherMillis⟩ := toMillis_of_retryLine hother
    rw [← hmillis, ← hotherMillis, Delay.toMillis_inj hwhole hotherWhole]

/-- The greatest number of milliseconds comes through with zeros before it, and is printed without
them; the next number is too great. -/
theorem Field.retryLine_exact_of_greatest :
    let value := Utf8.encode "0018446744073709551615"
    let delay : Delay := .ofMillis (wordLimit - 1) (by decide)
    let stream := retryLine value ++ [0x0a, 0x0a]
    let read := (Decoder.start ⟨30, .failStream⟩ (by decide)).readAll [stream]
    ofLine? (retryLine value) = some (.retry delay) ∧
      ofLine? (retryLine (Utf8.encode "18446744073709551616")) = none ∧
      (∃ before after : Bytes,
        Utf8.encode (Event.printed ⟨none, none, some delay, ""⟩ .json) =
          before ++ Utf8.encode "\"retry_ms\":18446744073709551615," ++ after) ∧
      read.2.1 = [⟨none, none, some delay, ""⟩] ∧ delay.toMillis = delay.wholeMillis := by
  intro value delay stream read
  obtain ⟨haccepts, hzeros, hprinted, hemitted, -⟩ := retryLine_exact
  have hrun := Decoder.readAll_eq (Decoder.sound_start ⟨30, .failStream⟩ (by decide)) [stream]
  rw [Splitter.readAll_eq_run] at hrun
  have hread : read.2.1 = [⟨none, none, some delay, ""⟩] :=
    (congrArg (·.2.1) hrun).trans (by decide +kernel)
  have hline : ofLine? (retryLine value) = some (.retry delay) :=
    (haccepts value _).mpr ⟨by decide +kernel, by decide +kernel, delay, rfl, by decide +kernel,
      by decide +kernel⟩
  refine ⟨hline, ?_, ?_, hread, ?_⟩
  · rw [Option.eq_none_iff_forall_ne_some]
    intro field hfield
    exact absurd ((haccepts _ field).mp hfield).2.1 (by decide +kernel)
  · obtain ⟨before, after, -, hsome⟩ := hprinted ⟨none, none, none, ""⟩ .json
    have hnumber : Utf8.encode PrintFormat.json.retryLabel ++ Decimal.shortest value ++
        Utf8.encode PrintFormat.json.retryStop =
          Utf8.encode "\"retry_ms\":18446744073709551615," := by
      decide +kernel
    refine ⟨before, after, ?_⟩
    rw [hsome value delay hline, ← hnumber]
    simp only [List.append_assoc]
  · exact (hemitted _ (by decide) read.2.1 (.handed [stream]) _ (hread ▸ List.mem_cons_self)
      delay rfl).2.1

end ServerSentEvents
