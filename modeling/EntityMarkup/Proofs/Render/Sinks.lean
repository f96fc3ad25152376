import EntityMarkup.Sink

/-!
# What a sink holds afterwards

A sink keeps what it held before, and takes a first part of what it is handed; all of it, if it does
not fail. A sink without a limit never fails, so that it then holds what the events write and report
behind what it held before (`record`).

* `acceptAll_of_room_none`: a sink without a limit takes everything.
* `text?_record`: what a new sink has taken can be read.
* **`exists_acceptAll`**: what any sink takes.
* `acceptAll_map_write`: text that is written in pieces.
* `acceptAll_limit_of_le`, `exists_acceptAll_limit`: what a sink takes that has a limit.
-/

namespace EntityMarkup.Sink

/-- A sink after all of some events. -/
def record (s : Sink) (events : List Event) : Sink :=
  { s with
    written := s.written ++ (Event.written events).utf8
    warnings := s.warnings ++ Event.warnings events }

@[simp] theorem record_nil (s : Sink) : s.record [] = s := by
  simp [record, Event.written, Event.warnings]

@[simp] theorem record_append (s : Sink) (xs ys : List Event) :
    s.record (xs ++ ys) = (s.record xs).record ys := by
  simp [record, ← Array.toList_inj]

theorem acceptAll_of_room_none {s : Sink} (h : s.room = none) (events : List Event) :
    s.acceptAll events = (s.record events, true) := by
  induction events generalizing s with
  | nil => rw [acceptAll, record_nil]
  | cons event rest ih =>
    have hone : s.accept event = (s.record [event], true) := by
      cases event with
      | write t => simp [accept, takeBytes, h, record, Event.written, Event.warnings]
      | warn w => simp [accept, record, Event.written, Event.warnings]
    have hboth : s.record (event :: rest) = (s.record [event]).record rest := by
      rw [← record_append, List.singleton_append]
    rw [acceptAll, hone, hboth]
    exact ih h

theorem text?_record (events : List Event) :
    (({} : Sink).record events).text? = some (Event.written events) := by
  simp [text?, record]

/-! ## Sinks with a limit -/

/-- What a sink takes of one event: its warning, and a first part of its bytes. -/
theorem exists_accept (s : Sink) (event : Event) :
    (s.accept event).1.warnings = s.warnings ++ Event.warnings [event] ∧
      ∃ bytes : Bytes, (s.accept event).1.written = s.written ++ bytes ∧
        bytes <+: (Event.written [event]).utf8 ∧
        ((s.accept event).2 = true → bytes = (Event.written [event]).utf8) := by
  cases event with
  | warn w => exact ⟨by simp [accept, Event.warnings], [], by simp [accept, Event.written]⟩
  | write t =>
    have hwritten : Event.written [.write t] = t := List.append_nil t
    rw [hwritten, accept, takeBytes]
    cases s.room with
    | none => exact ⟨by simp [Event.warnings], t.utf8, rfl, List.prefix_refl _, fun _ => rfl⟩
    | some n =>
      refine ⟨by simp [Event.warnings], t.utf8.take n, rfl, List.take_prefix n _, fun h => ?_⟩
      exact List.take_of_length_le (of_decide_eq_true h)

/-- **What any sink takes**: a first part of the bytes and of the warnings, and all of them if it
does not fail. -/
theorem exists_acceptAll (s : Sink) (events : List Event) :
    ∃ (bytes : Bytes) (reported : List Warning),
      (s.acceptAll events).1.written = s.written ++ bytes ∧
      (s.acceptAll events).1.warnings = s.warnings ++ reported ∧
      bytes <+: (Event.written events).utf8 ∧ reported <+: Event.warnings events ∧
      ((s.acceptAll events).2 = true →
        bytes = (Event.written events).utf8 ∧ reported = Event.warnings events) := by
  induction events generalizing s with
  | nil =>
    exact ⟨[], [], by simp [acceptAll], by simp [acceptAll], List.nil_prefix, List.nil_prefix,
      fun _ => ⟨rfl, rfl⟩⟩
  | cons event rest ih =>
    obtain ⟨hwarnings, bytes, hwritten, hbytes, hall⟩ := exists_accept s event
    have hsplit : event :: rest = [event] ++ rest := rfl
    rw [hsplit, Event.written_append, Event.warnings_append, Text.utf8_append,
      List.singleton_append, acceptAll]
    cases haccept : s.accept event with
    | mk s₁ complete =>
      rw [haccept] at hwarnings hwritten hall
      dsimp only at hwarnings hwritten
      cases complete with
      | true =>
        obtain ⟨more, later, hmore, hlater, hmore', hlater', hrest⟩ := ih s₁
        refine ⟨bytes ++ more, Event.warnings [event] ++ later, ?_, ?_, ?_, ?_, fun h => ?_⟩
        · simp [hmore, hwritten, ← Array.toList_inj]
        · simp [hlater, hwarnings, ← Array.toList_inj]
        · rw [hall rfl]
          exact (List.prefix_append_right_inj _).mpr hmore'
        · exact (List.prefix_append_right_inj _).mpr hlater'
        · rw [hall rfl, (hrest h).1, (hrest h).2]
          exact ⟨rfl, rfl⟩
      | false =>
        exact ⟨bytes, Event.warnings [event], hwritten, hwarnings,
          hbytes.trans (List.prefix_append _ _), List.prefix_append _ _, fun h => nomatch h⟩

theorem of_acceptAll_eq_true {s s' : Sink} {events : List Event}
    (h : s.acceptAll events = (s', true)) :
    s'.written = s.written ++ (Event.written events).utf8 ∧
      s'.warnings = s.warnings ++ Event.warnings events := by
  obtain ⟨bytes, reported, hwritten, hwarnings, -, -, hall⟩ := exists_acceptAll s events
  rw [h] at hwritten hwarnings hall
  obtain ⟨rfl, rfl⟩ := hall rfl
  exact ⟨hwritten, hwarnings⟩

/-- A sink that is handed no warning holds those that it held before. -/
theorem warnings_acceptAll {events : List Event} (h : Event.warnings events = []) (s : Sink) :
    (s.acceptAll events).1.warnings = s.warnings := by
  obtain ⟨_, reported, -, hwarnings, -, hreported, -⟩ := exists_acceptAll s events
  rw [h, List.prefix_nil] at hreported
  simp [hwarnings, hreported]

theorem acceptAll_append (s : Sink) (xs ys : List Event) :
    s.acceptAll (xs ++ ys) =
      match s.acceptAll xs with
      | (s', true) => s'.acceptAll ys
      | (s', false) => (s', false) := by
  induction xs generalizing s with
  | nil => rfl
  | cons event rest ih =>
    rw [List.cons_append, acceptAll, acceptAll]
    cases s.accept event with
    | mk s' complete =>
      cases complete with
      | true => exact ih s'
      | false => rfl

/-! ## Writing in pieces -/

theorem takeBytes_append (s : Sink) (xs ys : Bytes) :
    s.takeBytes (xs ++ ys) =
      match s.takeBytes xs with
      | (s', true) => s'.takeBytes ys
      | (s', false) => (s', false) := by
  unfold takeBytes
  cases hroom : s.room with
  | none => simp [← Array.toList_inj]
  | some n =>
    by_cases hle : xs.length ≤ n
    · have hsum : xs.length + ys.length ≤ n ↔ ys.length ≤ n - xs.length := by omega
      simp [hle, hsum, Nat.sub_sub, List.take_append, List.take_of_length_le hle,
        ← Array.toList_inj]
    · -- the first part is cut, and leaves no room
      have hsum : ¬ xs.length + ys.length ≤ n := by omega
      have hnone : n - xs.length = 0 := by omega
      have hnone' : n - (xs.length + ys.length) = 0 := by omega
      simp [hle, hsum, hnone, hnone', List.take_append]

/-- **Pieces are written as the text that they are put together.** A sink takes the same bytes of
them, and fails at the same byte. -/
theorem acceptAll_map_write (s : Sink) (texts : List Text) :
    s.acceptAll (texts.map .write) = s.takeBytes (Text.utf8 texts.flatten) := by
  induction texts generalizing s with
  | nil =>
    obtain ⟨room, written, warnings⟩ := s
    cases room <;> simp [acceptAll, takeBytes]
  | cons t rest ih =>
    have haccept : s.accept (.write t) = s.takeBytes t.utf8 := rfl
    rw [List.map_cons, acceptAll, haccept, List.flatten_cons, Text.utf8_append, takeBytes_append]
    cases s.takeBytes t.utf8 with
    | mk s' complete =>
      cases complete with
      | true => exact ih s'
      | false => rfl

/-! ## The same sink with and without a limit -/

/-- A sink that holds the same and has no limit. -/
def unlimited (s : Sink) : Sink :=
  { s with room := none }

/-- A sink that holds the same and has room for `n` more bytes. -/
def limit (s : Sink) (n : Nat) : Sink :=
  { s with room := some n }

variable {event : Event} {events : List Event} {n : Nat}

theorem accept_limit_of_le (s : Sink) (hle : (Event.written [event]).size ≤ n) :
    (s.limit n).accept event
      = ((s.record [event]).limit (n - (Event.written [event]).size), true) := by
  cases event with
  | warn w => simp [accept, limit, record, Event.written, Event.warnings]
  | write t =>
    have hwritten : Event.written [.write t] = t := List.append_nil t
    rw [hwritten] at hle ⊢
    have htake : t.utf8.take n = t.utf8 := List.take_of_length_le (by rwa [Text.length_utf8])
    simp [accept, takeBytes, limit, record, Event.warnings, hwritten, hle, htake]

/-- With room enough, a limit makes no difference but for the room that is left. -/
theorem acceptAll_limit_of_le (s : Sink) (hle : (Event.written events).size ≤ n) :
    (s.limit n).acceptAll events
      = ((s.record events).limit (n - (Event.written events).size), true) := by
  induction events generalizing s n with
  | nil =>
    rw [acceptAll, record_nil]
    rfl
  | cons event rest ih =>
    have hsplit : event :: rest = [event] ++ rest := rfl
    rw [hsplit, Event.written_append, Text.size_append] at hle
    rw [acceptAll, accept_limit_of_le s (by omega), hsplit, record_append, Event.written_append,
      Text.size_append]
    simp only
    rw [ih (s.record [event]) (by omega), Nat.sub_sub]

/-- Without room enough a sink fails, and has then taken exactly the bytes it had room for. -/
theorem exists_acceptAll_limit (s : Sink) (hlt : n < (Event.written events).size) :
    ∃ s', (s.limit n).acceptAll events = (s', false) ∧
      s'.written.toList = s.written.toList ++ (Event.written events).utf8.take n ∧
      ∃ reported, s'.warnings.toList = s.warnings.toList ++ reported ∧
        reported <+: Event.warnings events := by
  induction events generalizing s n with
  | nil => exact absurd hlt (Nat.not_lt_zero n)
  | cons event rest ih =>
    have hsplit : event :: rest = [event] ++ rest := rfl
    rw [hsplit, Event.written_append, Text.size_append] at hlt
    rw [acceptAll, hsplit, Event.written_append, Event.warnings_append, Text.utf8_append,
      List.take_append, Text.length_utf8]
    by_cases hroom : (Event.written [event]).size ≤ n
    · obtain ⟨s', haccept, hwritten, reported, hwarnings, hreported⟩ :=
        ih (n := n - (Event.written [event]).size) (s.record [event]) (by omega)
      refine ⟨s', ?_, ?_, Event.warnings [event] ++ reported, ?_, ?_⟩
      · rw [accept_limit_of_le s hroom]
        exact haccept
      · have htake : (Event.written [event]).utf8.take n = (Event.written [event]).utf8 :=
          List.take_of_length_le (by rwa [Text.length_utf8])
        rw [hwritten, htake]
        simp [record]
      · simp [hwarnings, record]
      · exact (List.prefix_append_right_inj _).mpr hreported
    · cases event with
      | warn w => exact absurd (Nat.zero_le n) hroom
      | write t =>
        -- this is the text that is cut
        have hwritten : Event.written [.write t] = t := List.append_nil t
        rw [hwritten] at hroom ⊢
        have hone : (s.limit n).accept (.write t)
            = (⟨some (n - t.size), s.written ++ t.utf8.take n, s.warnings⟩, false) := by
          simp [accept, takeBytes, limit, hroom]
        rw [hone, Nat.sub_eq_zero_of_le (Nat.le_of_not_le hroom), List.take_zero, List.append_nil]
        exact ⟨_, rfl, by simp, [], by simp, List.nil_prefix⟩

end EntityMarkup.Sink
