import IocpChat.Lib.Attempt
import Mathlib.Data.List.Basic
import Mathlib.Data.List.Flatten

/-!
# Wire formats, decoders and encoders

A format says which values have an encoding and which tokens encode them.  A
decoder reads from a cursor, an encoder writes to a sink of limited room; both
are attempts, so a caller abandons them at the first failure.  The rules below
follow the way codecs are written: one field after another, a header that
decides the shape of the rest, and a block repeated a known number of times.
-/

namespace WireFormat

/-- The encodable values of a type and their encodings. -/
structure Format (Token : Type u) (Value : Type v) where
  Representable : Value → Prop
  tokens : Value → List Token

namespace Format

variable {Token : Type u} {Value : Type v} {Other : Type w}

/-- `input` is the encoding of `value` followed by `rest`. -/
def Starts (format : Format Token Value) (input : List Token)
    (value : Value) (rest : List Token) : Prop :=
  format.Representable value ∧ input = format.tokens value ++ rest

/-- One value, then another. -/
def seq (first : Format Token Value) (second : Format Token Other) :
    Format Token (Value × Other) where
  Representable pair :=
    first.Representable pair.1 ∧ second.Representable pair.2
  tokens pair := first.tokens pair.1 ++ second.tokens pair.2

/-- A record is encoded as the tuple of its fields. -/
def comap (format : Format Token Value) (fields : Other → Value) :
    Format Token Other where
  Representable value := format.Representable (fields value)
  tokens value := format.tokens (fields value)

/-- A header computed from the value, then a body whose shape the header
decides. -/
def headed (header : Format Token Value) (key : Other → Value)
    (body : Value → Format Token Other) : Format Token Other where
  Representable value :=
    header.Representable (key value) ∧
      (body (key value)).Representable value
  tokens value := header.tokens (key value) ++ (body (key value)).tokens value

/-- The empty encoding of the only value. -/
def unit : Format Token Unit where
  Representable _ := True
  tokens _ := []

/-- Exactly `count` values, one after another. -/
def repeated (item : Format Token Value) (count : Nat) :
    Format Token (List Value) where
  Representable values :=
    values.length = count ∧ ∀ value ∈ values, item.Representable value
  tokens values := values.flatMap item.tokens

/-- Exactly `count` raw tokens. -/
def raw (count : Nat) : Format Token (List Token) where
  Representable block := block.length = count
  tokens block := block

end Format

/-- How a decoder state is read: which states can be read from, what they
have left, and what every call leaves unchanged. -/
structure Cursor (State : Type u) (Token : Type v) where
  Ready : State → Prop
  remaining : State → List Token
  Frame : State → State → Prop
  frame_refl : ∀ state, Frame state state
  frame_trans : ∀ {first second third},
    Frame first second → Frame second third → Frame first third

section Decoders

variable {State : Type u} {Token : Type v} {Value : Type u}
  {Other : Type u} {cursor : Cursor State Token}

/-- A decoder of a format: it recovers every encoded value, what it returns
was encoded there (on the inputs `Guard` admits), and it keeps the frame. -/
structure Decodes (cursor : Cursor State Token) (format : Format Token Value)
    (Guard : List Token → Prop) (decoder : Attempt State Value) : Prop where
  recovers : ∀ {state value rest}, cursor.Ready state →
    format.Starts (cursor.remaining state) value rest →
    ∃ next, decoder.run state = (some value, next) ∧
      cursor.remaining next = rest
  sound : ∀ {state value next}, cursor.Ready state →
    Guard (cursor.remaining state) →
    decoder.run state = (some value, next) →
    format.Starts (cursor.remaining state) value (cursor.remaining next)
  ready : ∀ {state value next}, cursor.Ready state →
    decoder.run state = (some value, next) → cursor.Ready next
  frame : ∀ {state}, cursor.Ready state →
    cursor.Frame state (decoder.run state).2

/-- The guard of decoders that accept nothing but encodings. -/
abbrev Unguarded : List Token → Prop := fun _ => True

namespace Decodes

variable {format : Format Token Value} {other : Format Token Other}
  {Guard : List Token → Prop}
  {decoder : Attempt State Value}

theorem of_guard {Weak : List Token → Prop}
    (decodes : Decodes cursor format Weak decoder)
    (stronger : ∀ input, Guard input → Weak input) :
    Decodes cursor format Guard decoder :=
  { decodes with
    sound := fun ready guarded succeeds =>
      decodes.sound ready (stronger _ guarded) succeeds }

/-- The decoded value is the only one encoded at the cursor. -/
theorem unique (decodes : Decodes cursor format Guard decoder)
    {state : State} {left right : Value} {leftRest rightRest : List Token}
    (ready : cursor.Ready state)
    (leftStarts : format.Starts (cursor.remaining state) left leftRest)
    (rightStarts : format.Starts (cursor.remaining state) right rightRest) :
    left = right ∧ leftRest = rightRest := by
  obtain ⟨leftNext, leftRun, leftRemaining⟩ :=
    decodes.recovers ready leftStarts
  obtain ⟨rightNext, rightRun, rightRemaining⟩ :=
    decodes.recovers ready rightStarts
  have same := leftRun.symm.trans rightRun
  simp only [Prod.mk.injEq, Option.some.injEq] at same
  obtain ⟨sameValue, sameState⟩ := same
  exact ⟨sameValue, by rw [← leftRemaining, ← rightRemaining, sameState]⟩

/-- Returning a value reads nothing. -/
theorem done (value : Value) :
    Decodes cursor
      { Representable := (· = value), tokens := fun _ => [] }
      Unguarded (Pure.pure value : Attempt State Value) where
  recovers := by
    rintro state found rest _ ⟨rfl, input⟩
    exact ⟨state, rfl, input⟩
  sound := by
    intro state found next _ _ succeeds
    cases succeeds
    exact ⟨rfl, rfl⟩
  ready := by
    intro state found next ready succeeds
    cases succeeds
    exact ready
  frame := fun _ => cursor.frame_refl _

/-- Decode a header, then the body it announces. -/
theorem headed (key : Other → Value) (body : Value → Format Token Other)
    {Inner : List Token → Prop}
    {continue_ : Value → Attempt State Other}
    (first : Decodes cursor format Guard decoder)
    (keyed : ∀ header value, (body header).Representable value →
      key value = header)
    (second : ∀ header, Decodes cursor (body header) Inner
      (continue_ header)) :
    Decodes cursor (format.headed key body)
      (fun input => Guard input ∧
        ∀ header rest, format.Starts input header rest → Inner rest)
      (decoder >>= continue_) where
  recovers := by
    rintro state value rest ready ⟨⟨headerFits, bodyFits⟩, input⟩
    obtain ⟨middle, headerRun, middleInput⟩ :=
      first.recovers ready ⟨headerFits, by
        rw [input, Format.headed, List.append_assoc]⟩
    have middleReady := first.ready ready headerRun
    obtain ⟨next, bodyRun, nextInput⟩ :=
      (second (key value)).recovers middleReady ⟨bodyFits, middleInput⟩
    exact ⟨next, by rw [Attempt.run_bind_of_some headerRun, bodyRun],
      nextInput⟩
  sound := by
    rintro state value next ready ⟨guarded, inner⟩ succeeds
    rcases headerRun : decoder.run state with ⟨_ | header, middle⟩
    · rw [Attempt.run_bind_of_none headerRun] at succeeds
      cases succeeds
    · rw [Attempt.run_bind_of_some headerRun] at succeeds
      have headerStarts := first.sound ready guarded headerRun
      obtain ⟨bodyFits, bodyInput⟩ :=
        (second header).sound (first.ready ready headerRun)
          (inner _ _ headerStarts) succeeds
      have sameKey := keyed header value bodyFits
      subst sameKey
      refine ⟨⟨headerStarts.1, bodyFits⟩, ?_⟩
      rw [headerStarts.2, bodyInput, Format.headed, List.append_assoc]
  ready := by
    intro state value next ready succeeds
    rcases headerRun : decoder.run state with ⟨_ | header, middle⟩
    · rw [Attempt.run_bind_of_none headerRun] at succeeds
      cases succeeds
    · rw [Attempt.run_bind_of_some headerRun] at succeeds
      exact (second header).ready (first.ready ready headerRun) succeeds
  frame := by
    intro state ready
    have headerFrame := first.frame ready
    rcases headerRun : decoder.run state with ⟨_ | header, middle⟩
    · rw [Attempt.run_bind_of_none headerRun]
      rwa [headerRun] at headerFrame
    · rw [Attempt.run_bind_of_some headerRun]
      rw [headerRun] at headerFrame
      exact cursor.frame_trans headerFrame
        ((second header).frame (first.ready ready headerRun))

/-- Build values from decoded parts; the encodable values are the ones built
from encodable parts, with the same encoding. -/
theorem map (equal : Format Token Other) (build : Value → Other)
    (decodes : Decodes cursor format Guard decoder)
    (representable : ∀ value, equal.Representable value ↔
      ∃ part, format.Representable part ∧ build part = value)
    (tokens : ∀ part, format.Representable part →
      equal.tokens (build part) = format.tokens part) :
    Decodes cursor equal Guard (build <$> decoder) where
  recovers := by
    rintro state value rest ready ⟨fits, input⟩
    obtain ⟨part, partFits, rfl⟩ := (representable value).mp fits
    obtain ⟨next, succeeds, nextInput⟩ :=
      decodes.recovers ready ⟨partFits, by rw [input, tokens part partFits]⟩
    refine ⟨next, ?_, nextInput⟩
    rw [map_eq_pure_bind, Attempt.run_bind_of_some succeeds, Attempt.run_pure]
  sound := by
    intro state value next ready guarded succeeds
    rw [map_eq_pure_bind] at succeeds
    rcases partRun : decoder.run state with ⟨_ | part, middle⟩
    · rw [Attempt.run_bind_of_none partRun] at succeeds
      cases succeeds
    · rw [Attempt.run_bind_of_some partRun, Attempt.run_pure] at succeeds
      cases succeeds
      obtain ⟨partFits, input⟩ := decodes.sound ready guarded partRun
      exact ⟨(representable _).mpr ⟨part, partFits, rfl⟩,
        by rw [input, tokens part partFits]⟩
  ready := by
    intro state value next ready succeeds
    rw [map_eq_pure_bind] at succeeds
    rcases partRun : decoder.run state with ⟨_ | part, middle⟩
    · rw [Attempt.run_bind_of_none partRun] at succeeds
      cases succeeds
    · rw [Attempt.run_bind_of_some partRun, Attempt.run_pure] at succeeds
      cases succeeds
      exact decodes.ready ready partRun
  frame := by
    intro state ready
    have partFrame := decodes.frame ready
    rw [map_eq_pure_bind]
    rcases partRun : decoder.run state with ⟨_ | part, middle⟩
    · rw [Attempt.run_bind_of_none partRun]
      rwa [partRun] at partFrame
    · rw [Attempt.run_bind_of_some partRun, Attempt.run_pure]
      rwa [partRun] at partFrame

/-- The same encodings, described differently. -/
theorem of_format (equal : Format Token Value)
    (decodes : Decodes cursor format Guard decoder)
    (representable : ∀ value,
      equal.Representable value ↔ format.Representable value)
    (tokens : ∀ value, format.Representable value →
      equal.tokens value = format.tokens value) :
    Decodes cursor equal Guard decoder := by
  have mapped := map equal id decodes
    (by intro value; simp [representable])
    (by intro value fits; exact tokens value fits)
  rwa [id_map] at mapped

/-- Build a record from the decoded tuple of its fields. -/
theorem record {build : Value → Other} {fields : Other → Value}
    (decodes : Decodes cursor format Guard decoder)
    (fields_build : ∀ value, fields (build value) = value)
    (build_fields : ∀ record, build (fields record) = record) :
    Decodes cursor (format.comap fields) Guard (build <$> decoder) := by
  refine map _ build decodes ?_ ?_
  · intro record
    constructor
    · intro fits
      exact ⟨fields record, fits, build_fields record⟩
    · rintro ⟨value, fits, rfl⟩
      simpa [Format.comap, fields_build] using fits
  · intro value _
    simp [Format.comap, fields_build]

/-- Decode two fields in turn. -/
theorem seq {Inner : List Token → Prop} {next : Attempt State Other}
    (first : Decodes cursor format Guard decoder)
    (second : Decodes cursor other Inner next) :
    Decodes cursor (format.seq other)
      (fun input => Guard input ∧
        ∀ header rest, format.Starts input header rest → Inner rest)
      (do
        let left ← decoder
        let right ← next
        Pure.pure (left, right)) := by
  let body : Value → Format Token (Value × Other) := fun left =>
    { Representable := fun pair =>
        pair.1 = left ∧ other.Representable pair.2
      tokens := fun pair => other.tokens pair.2 }
  have tail : ∀ left, Decodes cursor (body left) Inner
      (Prod.mk left <$> next) := by
    intro left
    refine map _ (Prod.mk left) second ?_ ?_
    · rintro ⟨first, second⟩
      simp [body, and_comm, eq_comm]
    · intro right _
      rfl
  simp only [map_eq_pure_bind] at tail
  have paired := headed Prod.fst body first
    (fun _ _ fits => fits.1) tail
  refine of_format _ paired ?_ ?_
  · simp [Format.seq, Format.headed, body]
  · simp [Format.seq, Format.headed, body]

/-- `seq` where only the first field can be guarded. -/
theorem seq_unguarded {next : Attempt State Other}
    (first : Decodes cursor format Guard decoder)
    (second : Decodes cursor other Unguarded next) :
    Decodes cursor (format.seq other) Guard
      (do
        let left ← decoder
        let right ← next
        Pure.pure (left, right)) :=
  (first.seq second).of_guard
    fun _ guarded => ⟨guarded, fun _ _ _ => trivial⟩

end Decodes

/-- Run a decoder a fixed number of times and collect the values. -/
def times (decoder : Attempt State Value) : Nat → Attempt State (List Value)
  | 0 => pure []
  | count + 1 => do
      let value ← decoder
      let values ← times decoder count
      pure (value :: values)

/-- Repeating a decoder decodes the repeated format. -/
theorem Decodes.times {format : Format Token Value}
    {decoder : Attempt State Value}
    (decodes : Decodes cursor format Unguarded decoder) (count : Nat) :
    Decodes cursor (format.repeated count) Unguarded
      (times decoder count) := by
  induction count with
  | zero =>
      refine of_format _ (done []) ?_ ?_
      · intro values
        simp only [Format.repeated, List.length_eq_zero_iff]
        constructor
        · exact And.left
        · rintro rfl
          simp
      · rintro values rfl
        rfl
  | succ count induction =>
      have collected := map (format.repeated (count + 1))
        (fun pair => pair.1 :: pair.2) (decodes.seq_unguarded induction)
        (by
          intro values
          cases values with
          | nil => simp [Format.repeated]
          | cons value values =>
              simp [Format.repeated, Format.seq, and_assoc, and_left_comm])
        (by intro part _; rfl)
      have unfolded : WireFormat.times decoder (count + 1) =
          (fun pair => pair.1 :: pair.2) <$> (do
            let value ← decoder
            let values ← WireFormat.times decoder count
            pure (value, values)) := by
        simp only [WireFormat.times, map_eq_pure_bind, bind_assoc, pure_bind]
      rw [unfolded]
      exact collected

end Decoders

/-- How an encoder state is read: what has been written, how much room is
left, and what every call leaves unchanged. -/
structure Sink (State : Type u) (Token : Type v) where
  Ready : State → Prop
  written : State → List Token
  room : State → Nat
  Frame : State → State → Prop
  frame_refl : ∀ state, Frame state state
  frame_trans : ∀ {first second third},
    Frame first second → Frame second third → Frame first third

section Encoders

variable {State : Type} {Token : Type v} {sink : Sink State Token}

/-- An encoder that appends `output`, and fails exactly when there is no room
for all of it. -/
structure Emits (sink : Sink State Token) (encoder : Attempt State Unit)
    (output : List Token) : Prop where
  fits : ∀ {state}, sink.Ready state → output.length ≤ sink.room state →
    ∃ next, encoder.run state = (some (), next) ∧ sink.Ready next ∧
      sink.written next = sink.written state ++ output ∧
      sink.room next + output.length = sink.room state
  full : ∀ {state}, sink.Ready state → sink.room state < output.length →
    (encoder.run state).1 = none
  frame : ∀ {state}, sink.Ready state →
    sink.Frame state (encoder.run state).2

namespace Emits

theorem nothing : Emits sink (pure () : Attempt State Unit) [] where
  fits := by
    intro state ready _
    exact ⟨state, rfl, ready, by simp, by simp⟩
  full := by
    intro state _ impossible
    exact absurd impossible (Nat.not_lt_zero _)
  frame := fun _ => sink.frame_refl _

/-- Writing one piece after another appends both or fails. -/
theorem append {first second : Attempt State Unit}
    {left right : List Token} (leftEmits : Emits sink first left)
    (rightEmits : Emits sink second right) :
    Emits sink (do first; second) (left ++ right) where
  fits := by
    intro state ready enough
    rw [List.length_append] at enough
    obtain ⟨middle, firstRun, middleReady, middleWritten, middleRoom⟩ :=
      leftEmits.fits ready (by omega)
    obtain ⟨next, secondRun, nextReady, nextWritten, nextRoom⟩ :=
      rightEmits.fits middleReady (by omega)
    refine ⟨next, ?_, nextReady, ?_, ?_⟩
    · rw [Attempt.run_bind_of_some firstRun, secondRun]
    · rw [nextWritten, middleWritten, List.append_assoc]
    · rw [List.length_append]
      omega
  full := by
    intro state ready short
    rw [List.length_append] at short
    by_cases leftFits : left.length ≤ sink.room state
    · obtain ⟨middle, firstRun, middleReady, _, middleRoom⟩ :=
        leftEmits.fits ready leftFits
      rw [Attempt.run_bind_of_some firstRun]
      exact rightEmits.full middleReady (by omega)
    · have leftFails := leftEmits.full ready (Nat.lt_of_not_le leftFits)
      rcases firstRun : first.run state with ⟨_ | _, middle⟩
      · rw [Attempt.run_bind_of_none firstRun]
      · rw [firstRun] at leftFails
        cases leftFails
  frame := by
    intro state ready
    have leftFrame := leftEmits.frame ready
    rcases firstRun : first.run state with ⟨_ | _, middle⟩
    · rw [Attempt.run_bind_of_none firstRun]
      rwa [firstRun] at leftFrame
    · rw [Attempt.run_bind_of_some firstRun]
      rw [firstRun] at leftFrame
      by_cases leftFits : left.length ≤ sink.room state
      · obtain ⟨next, again, nextReady, _⟩ := leftEmits.fits ready leftFits
        rw [firstRun] at again
        cases again
        exact sink.frame_trans leftFrame (rightEmits.frame nextReady)
      · have leftFails := leftEmits.full ready (Nat.lt_of_not_le leftFits)
        rw [firstRun] at leftFails
        cases leftFails

/-- Writing every item of a list in turn. -/
theorem each {Item : Type} {encode : Item → Attempt State Unit}
    {tokens : Item → List Token}
    (emits : ∀ item, Emits sink (encode item) (tokens item))
    (items : List Item) :
    Emits sink (items.forM encode) (items.flatMap tokens) := by
  induction items with
  | nil => exact nothing
  | cons item items induction =>
      rw [List.flatMap_cons]
      exact (emits item).append induction

end Emits

end Encoders

end WireFormat
