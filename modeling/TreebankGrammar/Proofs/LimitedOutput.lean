/-
TreebankGrammar/Proofs/LimitedOutput.lean

Conversions whose output has limited room.

A receiver is offered bytes and takes some from the front; how many is up to
it.  It takes something as long as it has room, and nothing once it is full.
A rule file is written to it rule by rule, every rule in six fragments, every
fragment in as many offers as the receiver needs, and the writer counts the
rules and gives up when nothing is taken.

Design.  `Receiver.Delivers` says what any piece of this work comes to: the
receiver took the beginning of what was to be written, up to its room, and the
work was completed just if there was room for everything.  Deliveries one
after the other are a delivery (`append`, `stop`), so each loop has it from
the loop inside.  The rules that are done are counted beside it
(`Receiver.Writes`).

Main results: a conversion to a receiver is one with the receiver's room,
however it takes bytes (`Receiver.convert_eq`); what a conversion comes to for
each room (`convert_limited`).
-/
import TreebankGrammar.Proofs.Conversion
import TreebankGrammar.Proofs.FileLines

namespace TreebankGrammar

/-- A receiver of bytes, which may take less than it is offered.  It takes
something as long as it has room, and what it takes it has room for. -/
structure Receiver (σ : Type*) where
  /-- The number of bytes that it will still take. -/
  room : σ → Nat
  /-- The number of bytes it takes from the front, and its state then. -/
  offer : σ → Bytes → Nat × σ
  offer_le : ∀ s bytes, (offer s bytes).1 ≤ bytes.length
  offer_pos : ∀ s bytes, bytes ≠ [] → room s ≠ 0 → (offer s bytes).1 ≠ 0
  offer_add_room : ∀ s bytes,
    (offer s bytes).1 + room (offer s bytes).2 = room s

/-- The receiver that takes a number of bytes at a time, and at the end what
it still has room for. -/
def Receiver.stepwise (step : Nat) (pos : step ≠ 0) : Receiver Nat where
  room := id
  offer room bytes :=
    let count := min (min step room) bytes.length
    (count, room - count)
  offer_le _ _ := Nat.min_le_right _ _
  offer_pos room bytes ne left := by
    have := List.length_pos_iff.2 ne
    show min (min step room) bytes.length ≠ 0
    rw [id_eq] at left
    omega
  offer_add_room room bytes := Nat.add_sub_of_le
    ((Nat.min_le_left _ _).trans (Nat.min_le_right _ _))

/-- A receiver at work: its state and the bytes it has taken. -/
structure Sink (σ : Type*) where
  state : σ
  taken : Bytes

namespace Receiver

variable {σ : Type*} (r : Receiver σ)

/-! ### Writing -/

/-- Offers bytes until all are taken, or none of those that are left.  Says
whether all were taken. -/
def writeAll (sink : Sink σ) (bytes : Bytes) : Bool × Sink σ :=
  if bytes = [] then (true, sink)
  else
    let (count, state) := r.offer sink.state bytes
    let sink := ⟨state, sink.taken ++ bytes.take count⟩
    if count = 0 then (false, sink)
    else writeAll sink (bytes.drop count)
termination_by bytes.length
decreasing_by
  have : bytes.length ≠ 0 := by simpa
  rw [List.length_drop]
  omega

/-- Writes fragments one after the other, up to the first that is not taken
as a whole. -/
def writeFragments : Sink σ → List Text → Bool × Sink σ
  | sink, [] => (true, sink)
  | sink, fragment :: fragments =>
    match r.writeAll sink fragment.encode with
    | (false, sink) => (false, sink)
    | (true, sink) => writeFragments sink fragments

/-- Writes the rules of a tag, up to the first that is not taken as a whole.
Gives the number of rules that are done, to which it adds, unless a rule was
not taken. -/
def writeExpansions (tag probability : Text) :
    Nat → Sink σ → List Expansion → Option Nat × Sink σ
  | written, sink, [] => (some written, sink)
  | written, sink, e :: es =>
    match r.writeFragments sink [tag, Production.openMark, e.written,
      closeMark, probability, ['\n']] with
    | (false, sink) => (none, sink)
    | (true, sink) => writeExpansions tag probability (written + 1) sink es

/-- Writes the rules of blocks, and counts them. -/
def writeBlocks : Nat → Sink σ → List Block → Option Nat × Sink σ
  | written, sink, [] => (some written, sink)
  | written, sink, b :: bs =>
    let probability := (uniformProbability b.expansions.length).scientific
    match r.writeExpansions b.tag probability written sink b.expansions with
    | (none, sink) => (none, sink)
    | (some written, sink) => writeBlocks written sink bs

/-- Writes the rule file of a table; gives the number of rules and the bytes
taken. -/
def writeRules (s : σ) (t : RuleTable) : Except Error Nat × Bytes :=
  match r.writeBlocks 0 ⟨s, []⟩ t.blocks with
  | (none, sink) => (.error .outputFull, sink.taken)
  | (some written, sink) => (.ok written, sink.taken)

/-- Converts a listing to a rule file for a receiver. -/
def convert (s : σ) (listing : Bytes) : Conversion :=
  match (Converter.start Converter.defaultInterval).read listing with
  | (some error, c) => ⟨.error error, [], c.log⟩
  | (none, c) =>
    let c := c.finish
    let (result, output) := r.writeRules s c.table
    ⟨result, output, c.log⟩

/-! ### Deliveries -/

/-- What writing bytes comes to: the receiver took their beginning, as far as
it had room, and they were delivered just if it had room for all. -/
structure Delivers (before : Sink σ) (bytes : Bytes) (delivered : Bool)
    (after : Sink σ) : Prop where
  taken_eq : after.taken = before.taken ++ bytes.take (r.room before.state)
  room_eq : r.room after.state = r.room before.state - bytes.length
  delivered_iff : delivered = true ↔ bytes.length ≤ r.room before.state

variable {r} {a b c : Sink σ} {xs ys : Bytes} {delivered : Bool}

theorem Delivers.nil (a : Sink σ) : r.Delivers a [] true a :=
  ⟨by simp, rfl, by simp⟩

/-- What is written after a delivery begins where it ended. -/
theorem Delivers.append (first : r.Delivers a xs true b)
    (second : r.Delivers b ys delivered c) :
    r.Delivers a (xs ++ ys) delivered c := by
  have fits := first.delivered_iff.1 rfl
  refine ⟨?_, ?_, ?_⟩
  · rw [second.taken_eq, first.taken_eq, first.room_eq,
      List.take_of_length_le fits, List.take_append,
      List.take_of_length_le fits, List.append_assoc]
  · rw [second.room_eq, first.room_eq, List.length_append]
    omega
  · rw [second.delivered_iff, first.room_eq, List.length_append]
    omega

/-- What would be written after bytes that were not delivered plays no
part. -/
theorem Delivers.stop (h : r.Delivers a xs false b) (ys : Bytes) :
    r.Delivers a (xs ++ ys) false b := by
  have short : r.room a.state < xs.length := by
    simpa using mt h.delivered_iff.2
  refine ⟨?_, ?_, ?_⟩
  · rw [h.taken_eq, List.take_append_of_le_length short.le]
  · rw [h.room_eq, List.length_append]
    omega
  · rw [List.length_append]
    exact iff_of_false Bool.false_ne_true (by omega)

/-- The bytes that are taken from an offer are delivered. -/
theorem delivers_offer (r : Receiver σ) (a : Sink σ) (bytes : Bytes) :
    r.Delivers a (bytes.take (r.offer a.state bytes).1) true
      ⟨(r.offer a.state bytes).2,
        a.taken ++ bytes.take (r.offer a.state bytes).1⟩ := by
  have length := r.offer_le a.state bytes
  have room := r.offer_add_room a.state bytes
  refine ⟨?_, ?_, ?_⟩
  · rw [List.take_take, Nat.min_eq_right (by omega)]
  · simp only [List.length_take]
    omega
  · simp only [List.length_take, true_iff]
    omega

/-- Offering bytes until nothing is taken delivers them. -/
theorem delivers_writeAll (r : Receiver σ) (a : Sink σ) (bytes : Bytes) :
    r.Delivers a bytes (r.writeAll a bytes).1 (r.writeAll a bytes).2 := by
  induction a, bytes using writeAll.induct r with
  | case1 a =>
    rw [writeAll, if_pos rfl]
    exact .nil a
  | case2 a bytes ne s offered =>
    -- a receiver that takes nothing is full
    rw [writeAll, if_neg ne, offered]
    have full : r.room a.state = 0 := by
      by_contra room
      exact r.offer_pos a.state bytes ne room (by rw [offered])
    have left := r.offer_add_room a.state bytes
    rw [offered, full] at left
    refine ⟨?_, ?_, ?_⟩
    · simp [full]
    · simp only [full]
      simpa using left
    · simpa [full] using ne
  | case3 a bytes ne count s offered sink some ih =>
    rw [writeAll, if_neg ne, offered]
    simp only [if_neg some]
    have first := r.delivers_offer a bytes
    rw [offered] at first
    simpa using first.append ih

theorem delivers_writeFragments (r : Receiver σ) (a : Sink σ)
    (fragments : List Text) :
    r.Delivers a (Text.encode fragments.flatten)
      (r.writeFragments a fragments).1 (r.writeFragments a fragments).2 := by
  induction fragments generalizing a with
  | nil => exact .nil a
  | cons fragment fragments ih =>
    have first := r.delivers_writeAll a fragment.encode
    rw [List.flatten_cons, Text.encode_append, writeFragments]
    rcases run : r.writeAll a fragment.encode with ⟨- | -, b⟩ <;>
      rw [run] at first
    · exact first.stop _
    · exact first.append (ih b)

/-! ### Rules -/

/-- What writing rules comes to: the lines are delivered or not, and if they
are, they have been counted. -/
structure Writes (r : Receiver σ) (before : Sink σ) (lines : List Text)
    (written : Nat) (result : Option Nat) (after : Sink σ) : Prop where
  delivers :
    r.Delivers before (Text.encode lines.flatten) result.isSome after
  counts : ∀ n, result = some n → n = written + lines.length

variable {lines others : List Text} {written n : Nat} {result : Option Nat}

theorem Writes.nil (a : Sink σ) (written : Nat) :
    r.Writes a [] written (some written) a :=
  ⟨.nil a, by rintro n ⟨⟩; rfl⟩

theorem Writes.append (first : r.Writes a lines written (some n) b)
    (second : r.Writes b others n result c) :
    r.Writes a (lines ++ others) written result c := by
  refine ⟨?_, fun m h => ?_⟩
  · rw [List.flatten_append, Text.encode_append]
    exact first.delivers.append second.delivers
  · rw [second.counts m h, first.counts n rfl, List.length_append]
    omega

theorem Writes.stop (h : r.Writes a lines written none b)
    (others : List Text) :
    r.Writes a (lines ++ others) written none b := by
  refine ⟨?_, nofun⟩
  rw [List.flatten_append, Text.encode_append]
  exact h.delivers.stop _

/-- A rule that is taken as a whole is counted. -/
theorem Writes.cons {line : Text}
    (first : r.Delivers a line.encode true b)
    (second : r.Writes b lines (written + 1) result c) :
    r.Writes a (line :: lines) written result c := by
  have one : r.Writes a [line] written (some (written + 1)) b :=
    ⟨by simpa using first, by rintro n ⟨⟩; rfl⟩
  exact one.append second

theorem writes_writeExpansions (r : Receiver σ) (tag probability : Text)
    (written : Nat) (a : Sink σ) (es : List Expansion) :
    r.Writes a (es.map (ruleLine tag probability)) written
      (r.writeExpansions tag probability written a es).1
      (r.writeExpansions tag probability written a es).2 := by
  induction es generalizing written a with
  | nil => exact .nil a written
  | cons e es ih =>
    have first := r.delivers_writeFragments a [tag, Production.openMark,
      e.written, closeMark, probability, ['\n']]
    have line : [tag, Production.openMark, e.written, closeMark, probability,
        ['\n']].flatten = ruleLine tag probability e := by simp [ruleLine]
    rw [line] at first
    rw [writeExpansions, List.map_cons]
    rcases run : r.writeFragments a _ with ⟨- | -, b⟩ <;>
      rw [run] at first
    · refine ⟨?_, nofun⟩
      rw [List.flatten_cons, Text.encode_append]
      exact first.stop _
    · exact .cons first (ih (written + 1) b)

theorem writes_writeBlocks (r : Receiver σ) (written : Nat) (a : Sink σ)
    (bs : List Block) :
    r.Writes a (bs.flatMap Block.ruleLines) written
      (r.writeBlocks written a bs).1 (r.writeBlocks written a bs).2 := by
  induction bs generalizing written a with
  | nil => exact .nil a written
  | cons b bs ih =>
    have first := r.writes_writeExpansions b.tag
      (uniformProbability b.expansions.length).scientific written a
      b.expansions
    rw [List.flatMap_cons, writeBlocks]
    rcases run : r.writeExpansions b.tag _ written a b.expansions with
      ⟨- | n, sink⟩ <;> rw [run] at first
    · exact first.stop _
    · exact first.append (ih n sink)

/-- **Writing to a receiver** is a delivery of the lines within its room,
however it takes bytes. -/
theorem writeRules_eq (r : Receiver σ) (s : σ) (t : RuleTable) :
    r.writeRules s t = t.writeRules (some (r.room s)) := by
  have writes := r.writes_writeBlocks 0 ⟨s, []⟩ t.blocks
  have file : Text.encode (t.blocks.flatMap Block.ruleLines).flatten =
      (t.ruleLines.map Text.encode).flatten := Text.encode_flatten _
  rw [writeRules, RuleTable.writeRules, RuleTable.write, deliver,
    deliverWithin_eq, ← file]
  rcases run : r.writeBlocks 0 ⟨s, []⟩ t.blocks with ⟨- | n, sink⟩ <;>
    rw [run] at writes
  · have short := mt writes.delivers.delivered_iff.2 Bool.false_ne_true
    simp only [decide_eq_false short, Bool.false_eq_true, if_false]
    rw [writes.delivers.taken_eq, List.nil_append]
  · have fits := writes.delivers.delivered_iff.1 rfl
    simp only [decide_eq_true fits, if_true]
    rw [writes.delivers.taken_eq, List.nil_append, writes.counts n rfl,
      Nat.zero_add, RuleTable.ruleLines]

/-- A conversion for a receiver is one with its room. -/
theorem convert_eq (r : Receiver σ) (s : σ) (listing : Bytes) :
    r.convert s listing = TreebankGrammar.convert listing (some (r.room s)) := by
  rw [convert, TreebankGrammar.convert]
  rcases (Converter.start Converter.defaultInterval).read listing with
    ⟨- | error, c⟩
  · simp only [writeRules_eq]
  · rfl

end Receiver

/-! ### Conversions -/

theorem RuleTable.length_ruleLines (t : RuleTable) :
    t.ruleLines.length = t.ruleCount := by
  simp [ruleLines, ruleCount, Block.ruleLines, List.length_flatMap]

/-- **Conversions with limited room.**  It plays no part how a receiver takes
bytes, and the events are those of the conversion without the limit.

If reading fails, so does the conversion, with the same error as without the
limit, and nothing is written.  If not, everything is written and counted just
if there is room for it; if there is not, the conversion fails, and the bytes
there is room for have been written, wherever that cuts the file. -/
theorem convert_limited (listing : Bytes) (room : Nat) :
    let reading := (Converter.start Converter.defaultInterval).read listing
    let whole := convert listing none
    let limited := convert listing (some room)
    (∀ (σ : Type) (r : Receiver σ) (s : σ), r.room s = room →
        r.convert s listing = limited) ∧
      limited.log = whole.log ∧
      (∀ error, reading.1 = some error →
        (whole.result = .error error ∧ limited.result = .error error) ∧
          whole.output = [] ∧ limited.output = []) ∧
      (reading.1 = none →
        ∃ n, whole.result = .ok n ∧ n = (finalTable listing).ruleCount ∧
          (limited.result = .ok n ∧ limited.output = whole.output ↔
            whole.output.length ≤ room) ∧
          (room < whole.output.length →
            limited.result = .error .outputFull ∧
              limited.output = whole.output.take room ∧
              limited.output.length = room)) := by
  intro reading whole limited
  have receivers (σ : Type) (r : Receiver σ) (s : σ) (h : r.room s = room) :
      r.convert s listing = limited := by
    rw [r.convert_eq, h]
  refine ⟨receivers, ?_⟩
  rcases run : reading with ⟨- | error, c⟩
  · have cut : limited = _ := convert_cut run room
    have counted : whole.result = .ok (finalTable listing).ruleCount := by
      rw [← RuleTable.length_ruleLines]
      exact (convert_of_accepts
        (accepts_iff_read.2 (congrArg Prod.fst run))).1
    rw [cut]
    refine ⟨rfl, nofun, fun _ => ⟨_, counted, rfl, ⟨?_, fun fits => ?_⟩,
      fun short => ?_⟩⟩
    · rintro ⟨ok, -⟩
      by_contra short
      rw [if_neg short] at ok
      cases ok
    · rw [if_pos fits, List.take_of_length_le fits]
      exact ⟨counted, rfl⟩
    · rw [if_neg (Nat.not_le.2 short), List.length_take]
      exact ⟨rfl, rfl, Nat.min_eq_left short.le⟩
  · -- nothing is written
    have none : whole = _ := convert_of_read_error run none
    have some : limited = _ := convert_of_read_error run (some room)
    rw [none, some]
    exact ⟨rfl, by rintro _ ⟨⟩; simp, nofun⟩

/-- A listing whose rule file is cut inside a letter, by a receiver that takes
two bytes at a time; and one that fails in its second line. -/
theorem convert_limited_letter :
    let accented := Text.encode "S --> é A\n".toList
    let faulty := Text.encode "S --> A\nS\n".toList
    let error := Error.malformedLine 2 "S".toList .wordCount
    ((Receiver.stepwise 2 (by decide)).convert 3 accented).result =
        .error .outputFull ∧
      ((Receiver.stepwise 2 (by decide)).convert 3 accented).output =
        [80, 95, 195] ∧
      Bytes.decode? [80, 95, 195] = none ∧
      (convert faulty none).result = .error error ∧
      (convert faulty (some 3)).result = .error error ∧
      (convert faulty (some 3)).output = [] := by
  intro accented faulty error
  obtain ⟨receivers, -, -, read⟩ := convert_limited accented 3
  obtain ⟨n, -, -, -, cut⟩ := read (by decide +kernel)
  obtain ⟨full, output, -⟩ := cut (by decide +kernel)
  obtain ⟨-, -, failing, -⟩ := convert_limited faulty 3
  obtain ⟨⟨whole, limited⟩, -, nothing⟩ := failing error (by decide +kernel)
  rw [receivers Nat (.stepwise 2 (by decide)) 3 rfl]
  refine ⟨full, ?_, by decide +kernel, whole, limited, nothing⟩
  rw [output]
  decide +kernel

end TreebankGrammar
