/-
TreebankGrammar/Proofs/ReportedEvents.lean

What a converter reports.

A converter is given single lines and whole listings, in any order, and goes
on after those that fail.  Its events are a history beside its state, and the
two have to agree: progress is reported at the multiples of the interval up to
the number of lines that are done, and a preterminal is reported as new just
if registering it made its tag.  The second is not the same as being
registered, since a tag may have come in as that of a line before.

Design.  A run of calls is reduced twice.  First to the lines that are handed
over one by one (`handedOver`), since a listing is given up at its first line
that fails; then to the requests that are granted (`history`), since a line
that fails has brought part of its requests by then.  Events are looked at
through two views of the log: the numbers of `processing` events (`progress`)
and the productions of `newPreterminal` events (`announced`).  What a line
does to the first view depends on the counts only, and what it does to the
second on the table only, so each has an invariant of its own (`OnTime`,
`Announces`).

Main result: `reported_afterCalls`.
-/
import TreebankGrammar.Proofs.Replay
import TreebankGrammar.Proofs.TableRuns

namespace TreebankGrammar

/-! ### Granted requests -/

namespace RuleTable

variable {t t' : RuleTable} {history : List Request} {ps : List Production}

/-- The requests of a run that are granted: those before the first one that is
refused. -/
def granted : List Request → RuleTable → List Request
  | [], _ => []
  | r :: rs, t =>
    match t.serve r with
    | .error _ => []
    | .ok (t', _) => r :: granted rs t'

/-- Requests after others are granted only if all of these are. -/
theorem granted_append (rs qs : List Request) (t : RuleTable) :
    t.granted (rs ++ qs) = t.granted rs ++
      match t.serveAll rs with
      | (some _, _) => []
      | (none, t') => t'.granted qs := by
  induction rs generalizing t with
  | nil => rfl
  | cons r rs ih =>
    rw [List.cons_append, granted, granted, serveAll]
    rcases t.serve r with conflict | ⟨t', isNew⟩
    · rfl
    · show r :: t'.granted (rs ++ qs) = _
      rw [ih]
      rfl

/-- Whether a tag was not in the table before it was registered for the first
time, in the course of granted requests. -/
def RegisteredNew (history : List Request) (tag : Text) : Prop :=
  ∃ before rule after, history = before ++ .register rule :: after ∧
    rule.lhs = tag ∧
    (∀ r ∈ before, r.registers = true → r.rule.lhs ≠ tag) ∧
    (empty.attemptAll before).expansions? tag = none

/-- Such a tag is one whose first request of all registers it. -/
theorem registeredNew_iff {tag : Text} :
    RegisteredNew history tag ↔
      ∃ rule, history.find? (fun r => r.rule.lhs == tag) =
        some (.register rule) := by
  have absent (before : List Request) :
      (empty.attemptAll before).expansions? tag = none ↔
        ∀ r ∈ before, r.rule.lhs ≠ tag := by
    rw [expansions?, Option.map_eq_none_iff, find?_attemptAll]
  constructor
  · rintro ⟨before, rule, after, rfl, rfl, -, none⟩
    refine ⟨rule, List.find?_eq_some_iff_append.2
      ⟨beq_self_eq_true _, before, after, rfl, fun r m => ?_⟩⟩
    simpa using (absent before).1 none r m
  · rintro ⟨rule, first⟩
    obtain ⟨here, before, after, rfl, others⟩ :=
      List.find?_eq_some_iff_append.1 first
    have ne : ∀ r ∈ before, r.rule.lhs ≠ tag := by simpa using others
    exact ⟨before, rule, after, rfl, eq_of_beq here,
      fun r m _ => ne r m, (absent before).2 ne⟩

/-- A further request is the first for a tag if the tag is not in the
table. -/
theorem registeredNew_append_singleton {r : Request} {tag : Text} :
    RegisteredNew (history ++ [r]) tag ↔
      RegisteredNew history tag ∨ r.registers = true ∧ r.rule.lhs = tag ∧
        (empty.attemptAll history).find? tag = none := by
  rw [registeredNew_iff, registeredNew_iff, List.find?_append,
    find?_attemptAll]
  rcases found : history.find? (fun r => r.rule.lhs == tag) with - | q
  · have absent : ∀ q ∈ history, q.rule.lhs ≠ tag := by simpa using found
    cases r with
    | insert rule => simp [found]
    | register rule => simpa [found] using fun here => absent
  · -- the tag is in the table, so further requests for it do not matter
    have here : q.rule.lhs = tag := by simpa using List.find?_some found
    have present : ¬ ∀ q ∈ history, q.rule.lhs ≠ tag :=
      fun absent => absent q (List.mem_of_find?_eq_some found) here
    simp [present]

/-! ### New preterminals -/

/-- The productions that were reported as new, in the course of granted
requests that made a table: their tags are different, and are those that were
not there before they were registered; each is all that the table has for its
tag. -/
structure Announces (t : RuleTable) (history : List Request)
    (ps : List Production) : Prop where
  table_eq : t = empty.attemptAll history
  nodup : (ps.map Production.lhs).Nodup
  mem_iff : ∀ tag, tag ∈ ps.map Production.lhs ↔ RegisteredNew history tag
  held : ∀ p ∈ ps, t.isPreterminal p.lhs = true ∧
    t.expansionsOf p.lhs = [p.rhs]

theorem Announces.empty : empty.Announces [] [] where
  table_eq := rfl
  nodup := List.nodup_nil
  mem_iff tag := by simp [registeredNew_iff]
  held := List.forall_mem_nil _

theorem Announces.sound (h : t.Announces history ps) : t.Sound :=
  h.table_eq ▸ (attemptAll_grows .empty history).1

section Granted

variable {r : Request} {isNew : Bool}

/-- After a granted request, what was reported as new is still all that the
table has for its tag. -/
theorem Announces.after (h : t.Announces history ps) (sound' : t'.Sound)
    (g : t.Grants r t' isNew) :
    ∀ p ∈ ps, t'.isPreterminal p.lhs = true ∧
      t'.expansionsOf p.lhs = [p.rhs] := by
  intro p m
  obtain ⟨reg, single⟩ := h.held p m
  exact ⟨g.mono reg, g.grows.expansionsOf_eq_singleton sound' reg single⟩

/-- A granted request that registers a tag which is not there has to be
reported. -/
theorem Announces.report (h : t.Announces history ps)
    (ok : t.serve r = .ok (t', isNew)) (reg : r.registers = true)
    (none : t.find? r.rule.lhs = none) :
    t'.Announces (history ++ [r]) (ps ++ [r.rule]) := by
  obtain ⟨sound', g⟩ := h.sound.grants_of_serve ok
  have absent := expansionsOf_of_find?_none none
  have new : r.rule.lhs ∉ ps.map Production.lhs := by
    intro m
    obtain ⟨p, mp, same⟩ := List.mem_map.1 m
    have single := (h.held p mp).2
    rw [same, absent] at single
    cases single
  refine ⟨?_, ?_, fun tag => ?_, fun p m => ?_⟩
  · rw [attemptAll_append_singleton, ← h.table_eq, attempt, ok]
  · rw [List.map_append, List.map_singleton, ← List.concat_eq_append]
    exact h.nodup.concat new
  · rw [registeredNew_append_singleton, ← h.mem_iff, ← h.table_eq,
      List.map_append, List.mem_append, List.map_singleton,
      List.mem_singleton]
    refine or_congr_right ⟨?_, fun last => last.2.1.symm⟩
    rintro rfl
    exact ⟨reg, rfl, none⟩
  · rcases List.mem_append.1 m with m | m
    · exact h.after sound' g p m
    · obtain rfl := List.mem_singleton.1 m
      refine ⟨g.registers reg, ?_⟩
      have isNew : isNew = true := g.isNew_iff.2 (by simp [absent])
      rw [g.expansionsOf_eq, if_pos ⟨rfl, isNew⟩, absent, List.nil_append]

/-- No other granted request has to be reported. -/
theorem Announces.skip (h : t.Announces history ps)
    (ok : t.serve r = .ok (t', isNew))
    (old : ¬ (r.registers = true ∧ t.find? r.rule.lhs = none)) :
    t'.Announces (history ++ [r]) ps := by
  obtain ⟨sound', g⟩ := h.sound.grants_of_serve ok
  refine ⟨?_, h.nodup, fun tag => ?_, h.after sound' g⟩
  · rw [attemptAll_append_singleton, ← h.table_eq, attempt, ok]
  · rw [registeredNew_append_singleton, ← h.mem_iff, ← h.table_eq]
    refine (or_iff_left ?_).symm
    rintro ⟨reg, rfl, none⟩
    exact old ⟨reg, none⟩

end Granted

/-- Registering a preterminal is new just if its tag is. -/
theorem isNew_iff_of_insertPreterminal {rule : Production} {isNew : Bool}
    (h : t.insertPreterminal rule = .ok (t', isNew)) :
    isNew = true ↔ t.find? rule.lhs = none := by
  rw [insertPreterminal] at h
  rcases found : t.find? rule.lhs with - | b
  · rw [found] at h
    cases h
    simp
  · rw [found] at h
    simp only at h
    split at h
    · cases h
      simp
    · cases h

end RuleTable

/-! ### Views of the log -/

namespace Event

/-- The number of lines that a report of progress tells. -/
def progress? : Event → Option Nat
  | processing lines => some lines
  | _ => none

/-- The production that a report of a new preterminal tells. -/
def announced? : Event → Option Production
  | newPreterminal _ rule => some rule
  | _ => none

end Event

namespace Converter

variable {c c' d : Converter} {past : List Request}

/-- The numbers of lines that were reported as progress, in order. -/
def progress (c : Converter) : List Nat :=
  c.log.toList.filterMap Event.progress?

/-- The productions of the preterminals that were reported as new, in
order. -/
def announced (c : Converter) : List Production :=
  c.log.toList.filterMap Event.announced?

theorem progress_report (c : Converter) (e : Event) :
    (c.report e).progress = c.progress ++ e.progress?.toList := by
  rw [progress, report, Array.toList_push, List.filterMap_append]
  cases e <;> rfl

theorem announced_report (c : Converter) (e : Event) :
    (c.report e).announced = c.announced ++ e.announced?.toList := by
  rw [announced, report, Array.toList_push, List.filterMap_append]
  cases e <;> rfl

/-! ### Progress -/

/-- Whether two converters agree in what counting lines has to do with. -/
structure SameCounts (c c' : Converter) : Prop where
  lines : c'.lines = c.lines
  interval : c'.interval = c.interval
  progress : c'.progress = c.progress

theorem SameCounts.refl (c : Converter) : c.SameCounts c := ⟨rfl, rfl, rfl⟩

theorem SameCounts.trans (h : c.SameCounts c') (h' : c'.SameCounts d) :
    c.SameCounts d :=
  ⟨h'.lines.trans h.lines, h'.interval.trans h.interval,
    h'.progress.trans h.progress⟩

/-- A report of anything but progress leaves the counts as they are. -/
theorem sameCounts_report (c : Converter) {e : Event}
    (other : e.progress? = none) : c.SameCounts (c.report e) :=
  ⟨rfl, rfl, by rw [progress_report, other]; exact List.append_nil _⟩

theorem sameCounts_register (lineNo : Nat) (rules : List Production)
    (c : Converter) : c.SameCounts (c.register lineNo rules).2 := by
  induction rules generalizing c with
  | nil => exact .refl c
  | cons rule rules ih =>
    rw [register]
    rcases c.table.insertPreterminal rule with conflict | ⟨table, isNew⟩
    · exact .refl c
    · have entered : c.SameCounts { c with table := table } := ⟨rfl, rfl, rfl⟩
      cases isNew with
      | false => exact entered.trans (ih _)
      | true => exact entered.trans ((sameCounts_report _ rfl).trans (ih _))

theorem sameCounts_add (lineNo : Nat) (line : Normalized) (c : Converter) :
    c.SameCounts (c.add lineNo line).2 := by
  have registered := c.sameCounts_register lineNo line.preterminals
  rw [add]
  rcases run : c.register lineNo line.preterminals with ⟨- | conflict, d⟩
  · rw [run] at registered
    simp only
    rcases d.table.insert line.rule with conflict | ⟨table, isNew⟩
    · exact registered
    · exact registered.trans ⟨rfl, rfl, rfl⟩
  · rw [run] at registered
    exact registered

/-- A line leaves the counts as they are if it fails, and is counted last if
it does not. -/
theorem processLine_counts (c : Converter) (text : Text) :
    ((c.processLine text).1 ≠ none ∧ c.SameCounts (c.processLine text).2) ∨
      (c.processLine text).1 = none ∧
        ∃ d, c.SameCounts d ∧ (c.processLine text).2 = d.count := by
  rcases parsed : Line.parse text with fault | line
  · rw [processLine_malformed parsed]
    exact .inl ⟨Option.some_ne_none _, .refl c⟩
  · have reported := c.sameCounts_report
      (e := .parsedLine (c.lines + 1) line.form line.tag) rfl
    have added := reported.trans
      (sameCounts_add (c.lines + 1) line.normalized _)
    rw [processLine, parsed]
    simp only
    rcases run : (c.report _).add (c.lines + 1) line.normalized with
      ⟨- | conflict, d⟩
    · rw [run] at added
      exact .inr ⟨rfl, d, added, rfl⟩
    · rw [run] at added
      exact .inl ⟨Option.some_ne_none _, added⟩

/-- The first multiples of a number, from the number itself on. -/
def multiples (k count : Nat) : List Nat :=
  (List.range count).map fun i => (i + 1) * k

theorem multiples_succ (k count : Nat) :
    multiples k (count + 1) = multiples k count ++ [(count + 1) * k] := by
  rw [multiples, List.range_succ, List.map_append, List.map_singleton]
  rfl

/-- Whether progress was reported at the multiples of the interval up to the
number of lines that are done.  There are none if the interval is zero, as
division by zero gives zero. -/
def OnTime (c : Converter) : Prop :=
  c.progress = multiples c.interval (c.lines / c.interval)

theorem OnTime.same (h : c.OnTime) (same : c.SameCounts c') : c'.OnTime := by
  rw [OnTime, same.progress, same.lines, same.interval]
  exact h

/-- Counting a line reports progress when it is due. -/
theorem OnTime.count (h : c.OnTime) : c.count.OnTime := by
  rw [OnTime] at h
  by_cases due : c.interval ≠ 0 ∧ (c.lines + 1) % c.interval = 0
  · have whole : c.interval ∣ c.lines + 1 := Nat.dvd_of_mod_eq_zero due.2
    have next : (c.lines + 1) / c.interval = c.lines / c.interval + 1 := by
      rw [Nat.succ_div, if_pos whole]
    have last : (c.lines / c.interval + 1) * c.interval = c.lines + 1 := by
      rw [← next, Nat.div_mul_cancel whole]
    rw [OnTime, Converter.count, if_pos due, progress_report]
    show c.progress ++ [c.lines + 1] =
      multiples c.interval ((c.lines + 1) / c.interval)
    rw [next, multiples_succ, last, h]
  · have part : ¬ c.interval ∣ c.lines + 1 := fun whole =>
      due ⟨fun zero => by simp [zero] at whole, Nat.mod_eq_zero_of_dvd whole⟩
    have same : (c.lines + 1) / c.interval = c.lines / c.interval := by
      rw [Nat.succ_div, if_neg part, Nat.add_zero]
    rw [OnTime, Converter.count, if_neg due]
    show c.progress = multiples c.interval ((c.lines + 1) / c.interval)
    rw [same, h]

/-- A line, whatever becomes of it, keeps progress on time, and the
interval. -/
theorem OnTime.processLine (h : c.OnTime) (text : Text) :
    (c.processLine text).2.OnTime ∧
      (c.processLine text).2.interval = c.interval := by
  rcases c.processLine_counts text with ⟨-, same⟩ | ⟨-, d, same, counted⟩
  · exact ⟨h.same same, same.interval⟩
  · rw [counted]
    refine ⟨(h.same same).count, ?_⟩
    rw [← same.interval, Converter.count]
    simp only
    split <;> rfl

/-! ### New preterminals of a line -/

/-- Registering the preterminals of a line reports those that have to be
reported. -/
theorem announces_register (lineNo : Nat) (rules : List Production)
    (h : c.table.Announces past c.announced) :
    (c.register lineNo rules).2.table.Announces
      (past ++ c.table.granted (rules.map Request.register))
      (c.register lineNo rules).2.announced := by
  induction rules generalizing c past with
  | nil => simpa [register, RuleTable.granted] using h
  | cons rule rules ih =>
    rw [register, List.map_cons, RuleTable.granted, RuleTable.serve]
    rcases ok : c.table.insertPreterminal rule with conflict | ⟨table, isNew⟩
    · simpa using h
    · have isNew_iff := RuleTable.isNew_iff_of_insertPreterminal ok
      simp only
      rw [List.append_cons]
      cases isNew with
      | false =>
        have old : ¬ c.table.find? rule.lhs = none := fun none =>
          Bool.false_ne_true (isNew_iff.2 none)
        exact ih (c := { c with table := table })
          (h.skip (r := .register rule) ok fun absent => old absent.2)
      | true =>
        have reported :=
          h.report (r := .register rule) ok rfl (isNew_iff.1 rfl)
        have told : (Converter.report { c with table := table }
            (.newPreterminal lineNo rule)).announced =
              c.announced ++ [rule] := announced_report _ _
        exact ih (told ▸ reported)

/-- So does adding a line; its own production is never registered. -/
theorem announces_add (lineNo : Nat) (line : Line)
    (h : c.table.Announces past c.announced) :
    (c.add lineNo line.normalized).2.table.Announces
      (past ++ c.table.granted line.requests)
      (c.add lineNo line.normalized).2.announced := by
  have registered := announces_register lineNo line.normalized.preterminals h
  rw [Line.requests, RuleTable.granted_append, ← c.register_eq lineNo, add]
  rcases run : c.register lineNo line.normalized.preterminals with
    ⟨- | conflict, d⟩
  · rw [run] at registered
    simp only at registered ⊢
    rw [RuleTable.granted, RuleTable.serve, ← List.append_assoc]
    rcases ok : d.table.insert line.normalized.rule with
      conflict | ⟨table, isNew⟩
    · simpa using registered
    · exact registered.skip (r := .insert line.normalized.rule) ok (by simp)
  · rw [run] at registered
    simpa using registered

theorem announced_count (c : Converter) : c.count.announced = c.announced := by
  rw [count]
  simp only
  split
  · rw [announced_report]
    exact List.append_nil _
  · rfl

/-- The requests of a line that are granted. -/
def grantedOf (c : Converter) (text : Text) : List Request :=
  c.table.granted (requestsOf (parsedLine? (some text)).toList)

/-- A line, whatever becomes of it, reports the preterminals that have to be
reported. -/
theorem announces_processLine (h : c.table.Announces past c.announced)
    (text : Text) :
    (c.processLine text).2.table.Announces (past ++ c.grantedOf text)
      (c.processLine text).2.announced := by
  rcases parsed : Line.parse text with fault | line
  · have none : c.grantedOf text = [] := by
      simp [grantedOf, parsedLine?, parsed, Except.toOption, requestsOf,
        RuleTable.granted]
    rw [processLine_malformed parsed, none, List.append_nil]
    exact h
  · have requests : c.grantedOf text = c.table.granted line.requests := by
      simp [grantedOf, parsedLine?, parsed, Except.toOption, requestsOf]
    have told : (c.report (.parsedLine (c.lines + 1) line.form
        line.tag)).announced = c.announced := by
      rw [announced_report]
      exact List.append_nil _
    rw [← told] at h
    have added := announces_add (c.lines + 1) line
      (c := c.report (.parsedLine (c.lines + 1) line.form line.tag)) h
    rw [requests, processLine, parsed]
    simp only
    rcases run : (c.report _).add (c.lines + 1) line.normalized with
      ⟨- | conflict, d⟩
    · rw [run] at added
      simp only
      rw [table_count, announced_count]
      exact added
    · rw [run] at added
      exact added

/-! ### Runs -/

/-- The requests that are granted in the course of lines, those of lines that
fail among them. -/
def history : List Text → Converter → List Request
  | [], _ => []
  | text :: texts, c =>
    c.grantedOf text ++ history texts (c.processLine text).2

/-- The lines that do not fail. -/
def passed : List Text → Converter → List Text
  | [], _ => []
  | text :: texts, c =>
    match c.processLine text with
    | (some _, c) => passed texts c
    | (none, c) => text :: passed texts c

/-- The lines that are done are those that did not fail. -/
theorem lines_processAll (texts : List Text) (c : Converter) :
    (c.processAll texts).lines = c.lines + (passed texts c).length := by
  induction texts generalizing c with
  | nil => rfl
  | cons text texts ih =>
    have step : c.processAll (text :: texts) =
        (c.processLine text).2.processAll texts := rfl
    have counted := c.lines_processLine text
    rw [step, ih, passed]
    rcases run : c.processLine text with ⟨- | error, d⟩
    · rw [run] at counted
      simp only [List.length_cons]
      rw [counted.1 rfl]
      omega
    · rw [run] at counted
      simp only
      rw [counted.2 (Option.some_ne_none error)]

theorem OnTime.processAll (h : c.OnTime) (texts : List Text) :
    (c.processAll texts).OnTime ∧
      (c.processAll texts).interval = c.interval := by
  induction texts generalizing c with
  | nil => exact ⟨h, rfl⟩
  | cons text texts ih =>
    obtain ⟨h', same⟩ := h.processLine text
    obtain ⟨h'', same'⟩ := ih h'
    exact ⟨h'', same'.trans same⟩

theorem announces_processAll (h : c.table.Announces past c.announced)
    (texts : List Text) :
    (c.processAll texts).table.Announces (past ++ history texts c)
      (c.processAll texts).announced := by
  induction texts generalizing c past with
  | nil => simpa [history, processAll] using h
  | cons text texts ih =>
    have next := ih (announces_processLine h text)
    rw [List.append_assoc] at next
    exact next

/-! ### Calls -/

/-- What a converter is given at once. -/
inductive Call where
  /-- A single line. -/
  | line (text : Text)
  /-- A whole listing. -/
  | listing (bytes : Bytes)

/-- The converter after a call, and the error if the call fails. -/
def call (c : Converter) : Call → Option Error × Converter
  | .line text => c.processLine text
  | .listing bytes => c.read bytes

/-- The converter after calls, whatever became of each. -/
def afterCalls (c : Converter) (calls : List Call) : Converter :=
  calls.foldl (fun c call => (c.call call).2) c

/-- The lines of a listing that are handed over: those up to the first one
that fails, and none from one on that is not valid text. -/
def handedFrom : List (Option Text) → Converter → List Text
  | [], _ => []
  | none :: _, _ => []
  | some text :: lines, c =>
    match c.processLine text with
    | (some _, _) => [text]
    | (none, c) => text :: handedFrom lines c

/-- The lines that calls hand over one by one. -/
def handedOver : List Call → Converter → List Text
  | [], _ => []
  | .line text :: calls, c =>
    text :: handedOver calls (c.call (.line text)).2
  | .listing bytes :: calls, c =>
    handedFrom bytes.lines c ++ handedOver calls (c.call (.listing bytes)).2

/-- Reading a listing is taking in the lines that are handed over. -/
theorem processLines_eq_processAll (lines : List (Option Text))
    (c : Converter) :
    (c.processLines lines).2 = c.processAll (handedFrom lines c) := by
  induction lines generalizing c with
  | nil => rfl
  | cons line lines ih =>
    rcases line with - | text
    · rfl
    · rw [processLines, handedFrom]
      rcases run : c.processLine text with ⟨- | error, d⟩
      · simp only
        rw [ih, processAll, processAll, List.foldl_cons, run]
      · simp only
        rw [processAll, List.foldl_cons, run, List.foldl_nil]

theorem afterCalls_eq_processAll (calls : List Call) (c : Converter) :
    c.afterCalls calls = c.processAll (handedOver calls c) := by
  induction calls generalizing c with
  | nil => rfl
  | cons call calls ih =>
    have step : c.afterCalls (call :: calls) =
        (c.call call).2.afterCalls calls := rfl
    cases call with
    | line text =>
      rw [step, ih]
      rfl
    | listing bytes =>
      rw [step, ih, handedOver, processAll_append,
        ← processLines_eq_processAll]
      rfl

/-- **Events agree with the run.**  Let a new converter be given single lines
and listings, some of which may fail.  Then the number of lines is that of
the lines that did not fail; progress is reported at every multiple of the
interval up to this number, in order and once; and what is reported as new
are productions of different tags, namely of the registered ones that were
not in the table before they were registered for the first time, each being
the one production that the table has for its tag. -/
theorem reported_afterCalls (interval : Nat) (calls : List Call) :
    let new := start interval
    let c := new.afterCalls calls
    let texts := handedOver calls new
    let requests := history texts new
    c = new.processAll texts ∧
      c.table = RuleTable.empty.attemptAll requests ∧
      c.lines = (passed texts new).length ∧
      c.progress = multiples interval (c.lines / interval) ∧
      (c.announced.map Production.lhs).Nodup ∧
      (∀ tag, tag ∈ c.announced.map Production.lhs ↔
        c.table.isPreterminal tag = true ∧
          RuleTable.RegisteredNew requests tag) ∧
      ∀ rule ∈ c.announced,
        c.table.expansions? rule.lhs = some [rule.rhs] := by
  intro new c texts requests
  have run : c = new.processAll texts := afterCalls_eq_processAll calls new
  have lines := lines_processAll texts new
  have onTime : new.OnTime := by simp [new, OnTime, start, progress, multiples]
  obtain ⟨progress, same⟩ := onTime.processAll texts
  have announces := announces_processAll RuleTable.Announces.empty texts
    (c := new)
  rw [List.nil_append] at announces
  rw [← run] at lines progress same announces
  refine ⟨run, announces.table_eq, ?_, ?_, announces.nodup, fun tag => ?_, ?_⟩
  · rw [lines]
    exact Nat.zero_add _
  · rw [progress, same]
    rfl
  · rw [announces.mem_iff]
    refine ⟨fun first => ⟨?_, first⟩, And.right⟩
    obtain ⟨rule, m, rfl⟩ :=
      List.mem_map.1 ((announces.mem_iff tag).2 first)
    exact (announces.held rule m).1
  · intro rule m
    exact RuleTable.expansions?_eq_singleton (announces.held rule m).2

/-- Two lines, one of which fails after it has registered a preterminal, a
line that brings in a tag as its own, and a listing that registers this tag
and ends in bytes that are not text. -/
def dogCalls : List Call :=
  [.line "X --> dog NN".toList, .line "P_DOG --> cat NN".toList,
    .line "P_THE --> the".toList,
    .listing (Text.encode "Y --> the NN\nY --> dog\n".toList ++ [255, 10])]

/-- Of the three registered tags two are reported; the line that failed is
not counted, though what it registered is reported. -/
theorem reported_afterCalls_dog :
    let c := (start 2).afterCalls dogCalls
    c.lines = 4 ∧ c.progress = [2, 4] ∧
      c.table.isPreterminal "P_CAT".toList = true ∧
      c.table.isPreterminal "P_THE".toList = true ∧
      "P_CAT".toList ∈ c.announced.map Production.lhs ∧
      "P_THE".toList ∉ c.announced.map Production.lhs := by
  intro c
  obtain ⟨-, -, lines, progress, -, mem_iff, -⟩ :=
    reported_afterCalls 2 dogCalls
  have counted : c.lines = 4 := lines.trans (by decide +kernel)
  have cat : c.table.isPreterminal "P_CAT".toList = true := by decide +kernel
  have the : c.table.isPreterminal "P_THE".toList = true := by decide +kernel
  have requested : (history (handedOver dogCalls (start 2)) (start 2)).find?
      (fun r => r.rule.lhs == "P_THE".toList) =
    some (.insert ⟨"P_THE".toList, [.terminal "the".toList]⟩) := by
    decide +kernel
  refine ⟨counted, ?_, cat, the, ?_, ?_⟩
  · rw [progress, counted]
    rfl
  · refine (mem_iff _).2 ⟨cat, RuleTable.registeredNew_iff.2
      ⟨⟨"P_CAT".toList, [.terminal "cat".toList]⟩, ?_⟩⟩
    decide +kernel
  · intro m
    obtain ⟨rule, first⟩ :=
      RuleTable.registeredNew_iff.1 ((mem_iff _).1 m).2
    cases first.symm.trans requested

end Converter

end TreebankGrammar
