import Mathlib.Data.List.Basic

/-!
# Incremental framing

A framing rule looks at the front of a byte stream and says whether a frame is
complete there, is still incomplete, or can never become one.  More input does
not change a verdict that has been given, so parsing the stream in pieces and
carrying the rest over gives the same frames as parsing it at once.
-/

namespace Framing

/-- What stands at the front of the input. -/
inductive Verdict where
  | incomplete
  | invalid
  | complete (length : Nat)
  deriving DecidableEq, Repr

/-- A rule whose verdicts are stable under more input. -/
structure Rule (Token : Type u) where
  verdict : List Token → Verdict
  nothing : verdict [] = .incomplete
  positive : ∀ {input length},
    verdict input = .complete length → 0 < length ∧ length ≤ input.length
  complete_append : ∀ {input length} (more : List Token),
    verdict input = .complete length →
    verdict (input ++ more) = .complete length
  invalid_append : ∀ {input} (more : List Token),
    verdict input = .invalid → verdict (input ++ more) = .invalid

/-- The frames at the front of an input, what is left, and whether the rest was
rejected. -/
structure Parsed (Token : Type u) where
  frames : List (List Token)
  rest : List Token
  rejected : Bool

section Streams

variable {Token : Type u}

/-- A part of a stream of frames: the frames that lie in it, the others, and
the bytes of an unfinished frame. -/
structure Splits (frames : List (List Token)) (part : List Token)
    (done rest : List (List Token)) (pending : List Token) : Prop where
  frames_eq : frames = done ++ rest
  part_eq : part = done.flatten ++ pending
  unfinished : pending <+: rest.flatten
  proper : ∀ next ∈ rest.head?, pending.length < next.length

/-- A longer front of the stream has not been received in full. -/
theorem Splits.length_lt {frames : List (List Token)} {part : List Token}
    {done rest : List (List Token)} {pending : List Token}
    (splits : Splits frames part done rest pending)
    {front back : List (List Token)} (cut : frames = front ++ back)
    (longer : done.length < front.length) :
    part.length < front.flatten.length := by
  have isPrefix : done <+: front :=
    List.prefix_of_prefix_length_le ⟨rest, splits.frames_eq.symm⟩
      ⟨back, cut.symm⟩ (Nat.le_of_lt longer)
  obtain ⟨more, rfl⟩ := isPrefix
  cases more with
  | nil => simp at longer
  | cons next more =>
      have sameRest : rest = next :: more ++ back := by
        have same := splits.frames_eq.symm.trans cut
        rw [List.append_assoc] at same
        exact List.append_cancel_left same
      have proper := splits.proper next (by rw [sameRest]; rfl)
      rw [splits.part_eq]
      simp only [List.flatten_append, List.flatten_cons, List.length_append]
      omega

/-- A front of the stream of no more frames has been received in full. -/
theorem Splits.length_le {frames : List (List Token)} {part : List Token}
    {done rest : List (List Token)} {pending : List Token}
    (splits : Splits frames part done rest pending)
    {front back : List (List Token)} (cut : frames = front ++ back)
    (shorter : front.length ≤ done.length) :
    front.flatten.length ≤ part.length := by
  have isPrefix : front <+: done :=
    List.prefix_of_prefix_length_le ⟨back, cut.symm⟩
      ⟨rest, splits.frames_eq.symm⟩ shorter
  obtain ⟨more, rfl⟩ := isPrefix
  rw [splits.part_eq, List.flatten_append, List.append_assoc,
    List.length_append]
  exact Nat.le_add_right _ _

/-- Once the whole stream is there, no frame is left. -/
theorem Splits.of_whole {frames : List (List Token)}
    {done rest : List (List Token)} {pending : List Token}
    (splits : Splits frames frames.flatten done rest pending) :
    done = frames ∧ pending = [] := by
  have nothingLeft : ¬done.length < frames.length := by
    intro longer
    exact Nat.lt_irrefl _
      (splits.length_lt (List.append_nil frames).symm longer)
  have lengths := congrArg List.length splits.frames_eq
  rw [List.length_append] at lengths
  have noRest : rest = [] := List.length_eq_zero_iff.mp (by omega)
  have unfinished := splits.unfinished
  rw [noRest] at unfinished
  refine ⟨?_, List.prefix_nil.mp unfinished⟩
  rw [splits.frames_eq, noRest, List.append_nil]

end Streams

namespace Rule

variable {Token : Type u}

/-- Cut off frames as long as one is complete. -/
def parse (rule : Rule Token) (input : List Token) : Parsed Token :=
  match _found : rule.verdict input with
  | .incomplete => { frames := [], rest := input, rejected := false }
  | .invalid => { frames := [], rest := input, rejected := true }
  | .complete length =>
      let parsed := rule.parse (input.drop length)
      { parsed with frames := input.take length :: parsed.frames }
termination_by input.length
decreasing_by
  have bounds := rule.positive _found
  rw [List.length_drop]
  omega

/-- A list of tokens that is one complete frame. -/
def IsFrame (rule : Rule Token) (frame : List Token) : Prop :=
  rule.verdict frame = .complete frame.length

variable {rule : Rule Token}

theorem parse_incomplete {input : List Token}
    (incomplete : rule.verdict input = .incomplete) :
    rule.parse input = { frames := [], rest := input, rejected := false } := by
  rw [parse]
  split
  · rfl
  · rename_i found
    rw [incomplete] at found
    cases found
  · rename_i found
    rw [incomplete] at found
    cases found

theorem parse_invalid {input : List Token}
    (invalid : rule.verdict input = .invalid) :
    rule.parse input = { frames := [], rest := input, rejected := true } := by
  rw [parse]
  split
  · rename_i found
    rw [invalid] at found
    cases found
  · rfl
  · rename_i found
    rw [invalid] at found
    cases found

theorem parse_complete {input : List Token} {length : Nat}
    (complete : rule.verdict input = .complete length) :
    rule.parse input =
      { rule.parse (input.drop length) with
        frames := input.take length ::
          (rule.parse (input.drop length)).frames } := by
  rw [parse]
  split
  · rename_i found
    rw [complete] at found
    cases found
  · rename_i found
    rw [complete] at found
    cases found
  · rename_i found
    rw [complete] at found
    cases found
    rfl

/-- Parsing loses nothing: the frames and the rest make up the input. -/
theorem parse_flatten (rule : Rule Token) (input : List Token) :
    (rule.parse input).frames.flatten ++ (rule.parse input).rest = input := by
  induction input using parse.induct rule with
  | case1 input incomplete => rw [parse_incomplete incomplete]; rfl
  | case2 input invalid => rw [parse_invalid invalid]; rfl
  | case3 input length complete induction =>
      rw [parse_complete complete]
      simp only [List.flatten_cons, List.append_assoc]
      rw [induction, List.take_append_drop]

/-- What is left begins with no frame, and was rejected if it never can. -/
theorem verdict_rest (rule : Rule Token) (input : List Token) :
    rule.verdict (rule.parse input).rest =
      if (rule.parse input).rejected then .invalid else .incomplete := by
  induction input using parse.induct rule with
  | case1 input incomplete =>
      rw [parse_incomplete incomplete]
      exact incomplete
  | case2 input invalid =>
      rw [parse_invalid invalid]
      exact invalid
  | case3 input length complete induction =>
      rw [parse_complete complete]
      exact induction

/-- Parsing in two pieces: what the first piece left is put in front of the
second. -/
theorem parse_append (rule : Rule Token) (input more : List Token) :
    rule.parse (input ++ more) =
      { rule.parse ((rule.parse input).rest ++ more) with
        frames := (rule.parse input).frames ++
          (rule.parse ((rule.parse input).rest ++ more)).frames } := by
  induction input using parse.induct rule with
  | case1 input incomplete =>
      rw [parse_incomplete incomplete]
      rfl
  | case2 input invalid =>
      rw [parse_invalid invalid]
      rfl
  | case3 input length complete induction =>
      have inside := (rule.positive complete).2
      rw [parse_complete (rule.complete_append more complete),
        parse_complete complete, List.take_append_of_le_length inside,
        List.drop_append_of_le_length inside, induction]
      rfl

/-- A rejected piece stays rejected, with the same frames. -/
theorem parse_append_rejected {input : List Token}
    (rejected : (rule.parse input).rejected = true) (more : List Token) :
    (rule.parse (input ++ more)).frames = (rule.parse input).frames ∧
      (rule.parse (input ++ more)).rejected = true := by
  have invalid := rule.verdict_rest input
  rw [if_pos rejected] at invalid
  rw [parse_append, parse_invalid (rule.invalid_append more invalid)]
  exact ⟨List.append_nil _, rfl⟩

theorem IsFrame.length_pos {frame : List Token} (isFrame : rule.IsFrame frame) :
    0 < frame.length :=
  (rule.positive isFrame).1

/-- A frame at the front is cut off, whatever follows it. -/
theorem parse_frame_append {frame : List Token} (isFrame : rule.IsFrame frame)
    (more : List Token) :
    rule.parse (frame ++ more) =
      { rule.parse more with frames := frame :: (rule.parse more).frames } := by
  have complete := rule.complete_append more isFrame
  rw [parse_complete complete, List.take_left, List.drop_left]

/-- A proper prefix of a frame is neither complete nor invalid. -/
theorem IsFrame.prefix_incomplete {frame part : List Token}
    (isFrame : rule.IsFrame frame) (isPrefix : part <+: frame)
    (proper : part.length < frame.length) :
    rule.verdict part = .incomplete := by
  obtain ⟨more, rfl⟩ := isPrefix
  cases verdict : rule.verdict part with
  | incomplete => rfl
  | invalid =>
      have whole := rule.invalid_append more verdict
      rw [IsFrame, whole] at isFrame
      cases isFrame
  | complete length =>
      have whole := rule.complete_append more verdict
      rw [IsFrame, whole] at isFrame
      have sameLength := Verdict.complete.inj isFrame
      have bounds := rule.positive verdict
      omega

/-- Nothing complete stands at the front of an unfinished frame. -/
theorem parse_pending {rest : List (List Token)} {pending : List Token}
    (areFrames : ∀ frame ∈ rest, rule.IsFrame frame)
    (unfinished : pending <+: rest.flatten)
    (proper : ∀ next ∈ rest.head?, pending.length < next.length) :
    rule.parse pending =
      { frames := [], rest := pending, rejected := false } := by
  apply parse_incomplete
  cases rest with
  | nil =>
      have nothing : pending = [] := List.prefix_nil.mp unfinished
      rw [nothing]
      exact rule.nothing
  | cons next rest =>
      have shorter := proper next rfl
      have inNext : pending <+: next :=
        List.prefix_of_prefix_length_le unfinished
          (List.prefix_append next rest.flatten) (Nat.le_of_lt shorter)
      exact (areFrames next (List.mem_cons_self ..)).prefix_incomplete
        inNext shorter

/-- Parsing a part of a stream of frames cuts off exactly the frames that lie
in it. -/
theorem parse_prefix {frames : List (List Token)} {part : List Token}
    (areFrames : ∀ frame ∈ frames, rule.IsFrame frame)
    (isPrefix : part <+: frames.flatten) :
    ∃ done rest pending, Splits frames part done rest pending ∧
      rule.parse part =
        { frames := done, rest := pending, rejected := false } := by
  induction frames generalizing part with
  | nil =>
      refine ⟨[], [], part, ⟨rfl, rfl, isPrefix, by simp⟩, ?_⟩
      exact parse_pending areFrames isPrefix (by simp)
  | cons frame frames induction =>
      obtain ⟨isFrame, restFrames⟩ := List.forall_mem_cons.mp areFrames
      rw [List.flatten_cons] at isPrefix
      by_cases whole : frame.length ≤ part.length
      · -- the first frame has arrived; the rest is a part of the others
        have front : frame <+: part :=
          List.prefix_of_prefix_length_le
            (List.prefix_append frame frames.flatten) isPrefix whole
        obtain ⟨tail, rfl⟩ := front
        have tailPrefix : tail <+: frames.flatten :=
          (List.prefix_append_right_inj frame).mp isPrefix
        obtain ⟨done, rest, pending, splits, parsed⟩ :=
          induction restFrames tailPrefix
        refine ⟨frame :: done, rest, pending, ?_, ?_⟩
        · exact
            { frames_eq := by rw [splits.frames_eq, List.cons_append]
              part_eq := by
                rw [splits.part_eq, List.flatten_cons, List.append_assoc]
              unfinished := splits.unfinished
              proper := splits.proper }
        · rw [parse_frame_append isFrame, parsed]
      · have shorter : part.length < frame.length := Nat.lt_of_not_le whole
        have proper : ∀ next ∈ (frame :: frames).head?,
            part.length < next.length := by
          intro next isHead
          have same : frame = next := Option.some.inj isHead
          exact same ▸ shorter
        refine ⟨[], frame :: frames, part, ⟨rfl, rfl, isPrefix, proper⟩, ?_⟩
        exact parse_pending areFrames isPrefix proper

end Rule

end Framing
