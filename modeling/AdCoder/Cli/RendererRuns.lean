import AdCoder.Cli.Renderer
import AdCoder.Foundation.JsonSizes

/-!
# The renderer's counts

Every consumed record is written, waits in the queue, is counted as dropped or is lost
from the count. Only a report that is dropped itself, or discarded in a close, loses any.
-/

namespace AdCoder.Cli.Renderer

open Foundation

variable {ρ : Type} {config : RendererConfig} {host : RendererHost ρ} {renderer : Renderer ρ}
  {line : RenderLine ρ} {event : RendererEvent ρ}

/-! ## Lines -/

@[simp] theorem records_append (front back : List (RenderLine ρ)) :
    records (front ++ back) = records front ++ records back :=
  List.filterMap_append

@[simp] theorem counted_append (front back : List (RenderLine ρ)) :
    counted (front ++ back) = counted front + counted back := by
  simp [counted]

@[simp] theorem bytes_append (front back : List (RenderLine ρ)) :
    bytes (front ++ back) = bytes front + bytes back := by
  simp [bytes]

@[simp] theorem records_nil : records ([] : List (RenderLine ρ)) = [] := rfl

@[simp] theorem counted_nil : counted ([] : List (RenderLine ρ)) = 0 := rfl

@[simp] theorem bytes_nil : bytes ([] : List (RenderLine ρ)) = 0 := rfl

@[simp] theorem records_singleton (line : RenderLine ρ) :
    records [line] = line.source.record?.toList := by
  cases h : line.source <;> simp [records, h]

@[simp] theorem counted_singleton (line : RenderLine ρ) : counted [line] = line.source.weight := by
  simp [counted]

@[simp] theorem bytes_singleton (line : RenderLine ρ) : bytes [line] = byteLength line.text := by
  simp [bytes]

/-- What is kept of a text, with the bytes kept before, is within the bound. -/
theorem size_boundChars_le (isFormat : Char → Bool) {maxBytes : Nat} (inspected : Nat)
    {bytes : Nat} (within : bytes ≤ maxBytes) (text : List Char) :
    bytes + ((boundChars isFormat maxBytes inspected bytes text).map Char.utf8Size).sum ≤
      maxBytes := by
  induction text generalizing inspected bytes with
  | nil => exact within
  | cons x rest ih =>
      simp only [boundChars]
      split_ifs with far stripped long
      · exact within
      · exact ih _ within
      · exact within
      · have more := ih (inspected + (codeUnits (String.singleton x)).length)
          (Nat.not_lt.mp long)
        rw [List.map_cons, List.sum_cons]
        omega

theorem byteLength_frame_le (isFormat : Char → Bool) (maxBytes : Nat) (raw : String) :
    byteLength (frame isFormat maxBytes raw) ≤ maxBytes + 1 := by
  have bound := size_boundChars_le isFormat 0 (Nat.zero_le maxBytes) raw.toList
  rw [Nat.zero_add, ← byteLength_ofList] at bound
  have newline : byteLength "\n" = 1 := rfl
  show byteLength (if (boundToolActivityText isFormat maxBytes raw).toList.getLast? = some '\n'
    then boundToolActivityText isFormat maxBytes raw
    else boundToolActivityText isFormat maxBytes raw ++ "\n") ≤ maxBytes + 1
  change byteLength (boundToolActivityText isFormat maxBytes raw) ≤ maxBytes at bound
  split_ifs
  · omega
  · rw [byteLength_append, newline]
    omega

/-! ## The invariant -/

/-- The records that an event loses from the count. -/
def loss (config : RendererConfig) (host : RendererHost ρ) (renderer : Renderer ρ) :
    RendererEvent ρ → Nat
  | .drain =>
      if renderer.closed || renderer.draining || renderer.queue.isEmpty ||
        renderer.hasRoom config (notice config host renderer) then 0 else renderer.dropped - 1
  | .close =>
      if renderer.closed || renderer.draining then 0
      else counted renderer.queue - renderer.queue.length
  | _ => 0

/-- A written line goes to the output, into the queue, or is counted as dropped. -/
theorem write_cases (config : RendererConfig) (host : RendererHost ρ) (renderer : Renderer ρ)
    (line : RenderLine ρ) :
    (renderer.queue = [] ∧ renderer.write config host line = renderer.send host line) ∨
    (renderer.hasRoom config line = true ∧ renderer.write config host line =
      { renderer with
        queue := renderer.queue ++ [line]
        queuedBytes := renderer.queuedBytes + byteLength line.text }) ∨
    ((renderer.blocked = true ∨ renderer.queue ≠ []) ∧ renderer.hasRoom config line = false ∧
      renderer.write config host line = { renderer with dropped := renderer.dropped + 1 }) := by
  unfold write
  split_ifs with direct room
  · exact Or.inl ⟨List.isEmpty_iff.mp (Bool.and_eq_true_iff.mp direct).2, rfl⟩
  · exact Or.inr (Or.inl ⟨room, rfl⟩)
  · refine Or.inr (Or.inr ⟨?_, Bool.eq_false_iff.mpr room, rfl⟩)
    by_cases blocked : renderer.blocked = true
    · exact Or.inl blocked
    · refine Or.inr fun empty => direct ?_
      simp [blocked, empty]

/-- What is in the queue is bounded and in order, and every consumed record is accounted for by
the lines, with those that are still to be written, or was lost. -/
structure Accounts (config : RendererConfig) (owed : List (RenderLine ρ)) (lost : Nat)
    (renderer : Renderer ρ) : Prop where
  ordered : (records (renderer.written ++ renderer.queue ++ owed)).Sublist renderer.consumed
  count : renderer.queue.length ≤ config.renderQueueCount
  size : renderer.queuedBytes = bytes renderer.queue
  limit : renderer.queuedBytes ≤ config.renderQueueBytes
  reports : ∀ line ∈ renderer.queue, 1 ≤ line.source.weight
  total : counted (renderer.written ++ renderer.queue ++ owed) + renderer.dropped + lost =
    renderer.consumed.length
  emptied : renderer.closed = true →
    renderer.queue = [] ∧ renderer.dropped = 0 ∧ renderer.draining = false

theorem accounts_initial : Accounts config [] 0 (initial : Renderer ρ) where
  ordered := List.Sublist.refl _
  count := Nat.zero_le _
  size := rfl
  limit := Nat.zero_le _
  reports := fun _ mem => nomatch mem
  total := rfl
  emptied := fun closed => nomatch closed

section Write

variable {lost : Nat}

/-- A line that is owed is written. -/
theorem Accounts.send (accounts : Accounts config [line] lost renderer)
    (empty : renderer.queue = []) (opened : renderer.closed = false) :
    Accounts config [] lost (renderer.send host line) where
  ordered := by simpa [Renderer.send, Renderer.emit, empty] using accounts.ordered
  count := accounts.count
  size := accounts.size
  limit := accounts.limit
  reports := accounts.reports
  total := by simpa [Renderer.send, Renderer.emit, empty] using accounts.total
  emptied := fun closed => by
    rw [show renderer.closed = true from closed] at opened
    cases opened

/-- A line that is owed is put into the queue. -/
theorem Accounts.enqueue (accounts : Accounts config [line] lost renderer)
    (room : renderer.hasRoom config line = true) (weight : 1 ≤ line.source.weight)
    (opened : renderer.closed = false) :
    Accounts config [] lost { renderer with
      queue := renderer.queue ++ [line]
      queuedBytes := renderer.queuedBytes + byteLength line.text } where
  ordered := by simpa using accounts.ordered
  count := by
    obtain ⟨free, -⟩ := Bool.and_eq_true_iff.mp room
    have free : renderer.queue.length < config.renderQueueCount := of_decide_eq_true free
    rw [List.length_append, List.length_singleton]
    exact free
  size := by simp [accounts.size]
  limit := of_decide_eq_true (Bool.and_eq_true_iff.mp room).2
  reports := by
    intro other mem
    obtain mem | mem := List.mem_append.mp mem
    · exact accounts.reports other mem
    · obtain rfl := List.mem_singleton.mp mem
      exact weight
  total := by simpa [Nat.add_assoc] using accounts.total
  emptied := fun closed => by
    rw [show renderer.closed = true from closed] at opened
    cases opened

/-- A line that is owed is dropped, and counts for one record. -/
theorem Accounts.refuse (accounts : Accounts config [line] lost renderer)
    (weight : 1 ≤ line.source.weight) (opened : renderer.closed = false) :
    Accounts config [] (lost + (line.source.weight - 1))
      { renderer with dropped := renderer.dropped + 1 } where
  ordered := by
    refine List.Sublist.trans ?_ accounts.ordered
    simp
  count := accounts.count
  size := accounts.size
  limit := accounts.limit
  reports := accounts.reports
  total := by
    have total := accounts.total
    simp only [counted_append, counted_singleton, List.append_nil] at total ⊢
    omega
  emptied := fun closed => by
    rw [show renderer.closed = true from closed] at opened
    cases opened

end Write

/-! ## One event -/

section Events

variable {lost : Nat}

theorem Accounts.consume {record : ρ} (accounts : Accounts config [] lost renderer)
    (opened : renderer.closed = false) :
    Accounts config [] lost (renderer.consume config host record) := by
  unfold Renderer.consume
  set line := framed config host (.record record) (host.stringify record ++ "\n") with hline
  have source : line.source = .record record := rfl
  have owed : Accounts config [line] lost
      { renderer with consumed := renderer.consumed ++ [record] } :=
    { ordered := by
        have ordered := accounts.ordered
        simp only [List.append_nil] at ordered
        simpa [source] using ordered.append (List.Sublist.refl [record])
      count := accounts.count
      size := accounts.size
      limit := accounts.limit
      reports := accounts.reports
      total := by
        have total := accounts.total
        simp only [List.append_nil, counted_append, counted_singleton, source,
          LineSource.weight_record, List.length_append, List.length_singleton] at total ⊢
        omega
      emptied := accounts.emptied }
  obtain ⟨empty, same⟩ | ⟨room, same⟩ | ⟨-, -, same⟩ := write_cases config host
    { renderer with consumed := renderer.consumed ++ [record] } line
  · rw [same]
    exact owed.send empty opened
  · rw [same]
    exact owed.enqueue room (Nat.le_refl 1) opened
  · rw [same]
    exact owed.refuse (Nat.le_refl 1) opened

theorem Accounts.onDrain (accounts : Accounts config [] lost renderer)
    (opened : renderer.closed = false) (idle : renderer.draining = false) :
    Accounts config [] (lost + loss config host renderer .drain)
      (renderer.onDrain config host) := by
  have closing {P : Prop} (closed : renderer.closed = true) : P := by
    rw [opened] at closed
    cases closed
  have begun : Accounts config [] lost { renderer with blocked := false, draining := true } :=
    ⟨accounts.ordered, accounts.count, accounts.size, accounts.limit, accounts.reports,
      accounts.total, closing⟩
  unfold Renderer.onDrain
  dsimp only
  split_ifs with some_dropped
  · set line := notice config host { renderer with blocked := false, draining := true } with hline
    have weight : line.source.weight = renderer.dropped := rfl
    have owed : Accounts config [line] lost
        { renderer with blocked := false, draining := true, dropped := 0 } :=
      { ordered := by
          have ordered := accounts.ordered
          simpa [hline, notice, framed] using ordered
        count := begun.count
        size := begun.size
        limit := begun.limit
        reports := begun.reports
        total := by
          have total := begun.total
          simp only [List.append_nil, counted_append, counted_singleton, weight] at total ⊢
          omega
        emptied := closing }
    obtain ⟨empty, same⟩ | ⟨room, same⟩ | ⟨refused, full, same⟩ := write_cases config host
      { renderer with blocked := false, draining := true, dropped := 0 } line
    · have none : loss config host renderer .drain = 0 := by
        have empty : renderer.queue = [] := empty
        simp [loss, empty]
      rw [same, none]
      exact owed.send empty opened
    · have none : loss config host renderer .drain = 0 := by
        have room : renderer.hasRoom config (notice config host renderer) = true := room
        simp [loss, room]
      rw [same, none]
      exact owed.enqueue room (weight ▸ some_dropped) opened
    · have all : loss config host renderer .drain = line.source.weight - 1 := by
        have full : renderer.hasRoom config (notice config host renderer) = false := full
        have queued : renderer.queue ≠ [] := by
          obtain blocked | queued := refused
          · cases blocked
          · exact queued
        simp [loss, opened, idle, full, queued, weight]
      rw [same, all]
      exact owed.refuse (weight ▸ some_dropped) opened
  · have none : loss config host renderer .drain = 0 := by
      have zero : renderer.dropped = 0 := by simpa using some_dropped
      simp [loss, zero]
    rw [none]
    exact begun

theorem Accounts.advance (accounts : Accounts config [] lost renderer)
    (opened : renderer.closed = false) :
    Accounts config [] lost (renderer.advance host) := by
  have stopped : Accounts config [] lost { renderer with draining := false } :=
    ⟨accounts.ordered, accounts.count, accounts.size, accounts.limit, accounts.reports,
      accounts.total, fun closed => ⟨(accounts.emptied closed).1, (accounts.emptied closed).2.1, rfl⟩⟩
  unfold Renderer.advance
  split
  · next line rest queued =>
      split_ifs with blocked
      · exact stopped
      · have size := accounts.size
        rw [queued, ← List.singleton_append, bytes_append, bytes_singleton] at size
        have limit := accounts.limit
        have count := accounts.count
        rw [queued, List.length_cons] at count
        exact
          { ordered := by
              have ordered := accounts.ordered
              rw [queued] at ordered
              simpa [Renderer.send, Renderer.emit] using ordered
            count := Nat.le_of_succ_le count
            size := by
              simp only [Renderer.send, Renderer.emit]
              omega
            limit := by
              simp only [Renderer.send, Renderer.emit]
              omega
            reports := fun other mem =>
              accounts.reports other (queued ▸ List.mem_cons_of_mem _ mem)
            total := by
              have total := accounts.total
              rw [queued] at total
              simpa [Renderer.send, Renderer.emit] using total
            emptied := fun closed => by
              rw [show renderer.closed = true from closed] at opened
              cases opened }
  · exact stopped

theorem length_le_counted {lines : List (RenderLine ρ)}
    (reports : ∀ line ∈ lines, 1 ≤ line.source.weight) : lines.length ≤ counted lines := by
  induction lines with
  | nil => exact Nat.le_refl _
  | cons line rest ih =>
      have first := reports line List.mem_cons_self
      have more := ih fun other mem => reports other (List.mem_cons_of_mem _ mem)
      rw [← List.singleton_append, counted_append, counted_singleton, List.length_append,
        List.length_singleton]
      omega

theorem counted_eq_length_iff {lines : List (RenderLine ρ)}
    (reports : ∀ line ∈ lines, 1 ≤ line.source.weight) :
    counted lines = lines.length ↔ ∀ line ∈ lines, line.source.weight = 1 := by
  induction lines with
  | nil => simp
  | cons line rest ih =>
      have first := reports line List.mem_cons_self
      have others : ∀ other ∈ rest, 1 ≤ other.source.weight :=
        fun other mem => reports other (List.mem_cons_of_mem _ mem)
      have more := length_le_counted others
      rw [List.forall_mem_cons, ← ih others, ← List.singleton_append, counted_append,
        counted_singleton, List.length_append, List.length_singleton]
      omega

theorem Accounts.close (accounts : Accounts config [] lost renderer)
    (opened : renderer.closed = false) (idle : renderer.draining = false) :
    Accounts config [] (lost + loss config host renderer .close) renderer.close := by
  have total := accounts.total
  have enough := length_le_counted accounts.reports
  have ordered : (records renderer.written).Sublist renderer.consumed := by
    refine List.Sublist.trans ?_ accounts.ordered
    simp
  have gone : loss config host renderer .close =
      counted renderer.queue - renderer.queue.length := by
    simp [loss, opened, idle]
  rw [gone]
  simp only [List.append_nil, counted_append] at total
  unfold Renderer.close
  dsimp only
  split_ifs with some_lost
  · exact
      { ordered := by simpa [Renderer.emit] using ordered
        count := Nat.zero_le _
        size := rfl
        limit := Nat.zero_le _
        reports := fun _ mem => nomatch mem
        total := by
          simp only [Renderer.emit, List.append_nil, counted_append, counted_singleton,
            LineSource.weight_drop]
          omega
        emptied := fun _ => ⟨rfl, rfl, idle⟩ }
  · exact
      { ordered := by simpa using ordered
        count := Nat.zero_le _
        size := rfl
        limit := Nat.zero_le _
        reports := fun _ mem => nomatch mem
        total := by
          simp only [List.append_nil]
          omega
        emptied := fun _ => ⟨rfl, rfl, idle⟩ }

/-- Every event keeps the account, but for what it loses. -/
theorem Accounts.next (accounts : Accounts config [] lost renderer) (event : RendererEvent ρ) :
    Accounts config [] (lost + loss config host renderer event)
      (renderer.next config host event) := by
  cases event with
  | consume record =>
      by_cases away : (renderer.closed || renderer.draining) = true
      · have same : renderer.next config host (.consume record) = renderer := if_pos away
        rw [same]
        exact accounts
      · have same : renderer.next config host (.consume record) =
          renderer.consume config host record := if_neg away
        rw [same]
        simp only [Bool.or_eq_true, not_or, Bool.not_eq_true] at away
        exact accounts.consume away.1
  | drain =>
      by_cases away : (renderer.closed || renderer.draining) = true
      · have same : renderer.next config host .drain = renderer := if_pos away
        have none : loss config host renderer .drain = 0 := by simp [loss, away]
        rw [same, none]
        exact accounts
      · have same : renderer.next config host .drain = renderer.onDrain config host :=
          if_neg away
        rw [same]
        simp only [Bool.or_eq_true, not_or, Bool.not_eq_true] at away
        exact accounts.onDrain away.1 away.2
  | advance =>
      by_cases looping : renderer.draining = true
      · have same : renderer.next config host .advance = renderer.advance host := if_pos looping
        rw [same]
        apply accounts.advance
        by_contra closed
        rw [(accounts.emptied (Bool.of_not_eq_false closed)).2.2] at looping
        cases looping
      · have same : renderer.next config host .advance = renderer := if_neg looping
        rw [same]
        exact accounts
  | close =>
      by_cases away : (renderer.closed || renderer.draining) = true
      · have same : renderer.next config host .close = renderer := if_pos away
        have none : loss config host renderer .close = 0 := if_pos away
        rw [same, none]
        exact accounts
      · have same : renderer.next config host .close = renderer.close := if_neg away
        rw [same]
        simp only [Bool.or_eq_true, not_or, Bool.not_eq_true] at away
        exact accounts.close away.1 away.2

/-- An event loses nothing exactly when it reports what was dropped. -/
theorem loss_eq_zero (accounts : Accounts config [] lost renderer) (event : RendererEvent ρ) :
    loss config host renderer event = 0 ↔ Reports config host renderer event := by
  cases event with
  | consume record => simp [loss, Reports]
  | advance => simp [loss, Reports]
  | drain =>
      simp only [loss, Reports]
      split_ifs with kept
      · simp only [Bool.or_eq_true, List.isEmpty_iff] at kept
        refine iff_of_true rfl fun opened idle => ?_
        obtain ((closed | looping) | empty) | room := kept
        · rw [opened] at closed
          cases closed
        · rw [idle] at looping
          cases looping
        · exact Or.inr (Or.inl empty)
        · exact Or.inr (Or.inr room)
      · simp only [Bool.or_eq_true, not_or, Bool.not_eq_true, List.isEmpty_iff] at kept
        obtain ⟨⟨⟨opened, idle⟩, queued⟩, full⟩ := kept
        constructor
        · intro few _ _
          exact Or.inl (by omega)
        · intro reports
          obtain few | empty | room := reports opened idle
          · omega
          · exact absurd empty queued
          · rw [full] at room
            cases room
  | close =>
      simp only [loss, Reports]
      split_ifs with away
      · refine iff_of_true rfl fun opened idle => ?_
        simp [opened, idle] at away
      · simp only [Bool.or_eq_true, not_or, Bool.not_eq_true] at away
        obtain ⟨opened, idle⟩ := away
        have ones := counted_eq_length_iff accounts.reports
        have enough := length_le_counted accounts.reports
        constructor
        · intro none _ _
          exact ones.mp (by omega)
        · intro reports
          have same := ones.mpr (reports opened idle)
          omega

end Events

/-! ## Every run -/

/-- What a run has lost by its end. -/
def lostBy (config : RendererConfig) (host : RendererHost ρ) :
    Renderer ρ → List (RendererEvent ρ) → Nat
  | _, [] => 0
  | renderer, event :: rest =>
      loss config host renderer event + lostBy config host (renderer.next config host event) rest

theorem Accounts.foldl {lost : Nat} (accounts : Accounts config [] lost renderer)
    (events : List (RendererEvent ρ)) :
    Accounts config [] (lost + lostBy config host renderer events)
      (events.foldl (Renderer.next config host) renderer) := by
  induction events generalizing renderer lost with
  | nil => exact accounts
  | cons event rest ih =>
      rw [lostBy, ← Nat.add_assoc]
      exact ih (accounts.next event)

theorem lostBy_eq_zero {lost : Nat} (accounts : Accounts config [] lost renderer)
    (events : List (RendererEvent ρ)) :
    lostBy config host renderer events = 0 ↔
      ∀ before event after, events = before ++ event :: after →
        Reports config host (before.foldl (Renderer.next config host) renderer) event := by
  induction events generalizing renderer lost with
  | nil =>
      refine iff_of_true rfl fun before event after split => ?_
      cases before <;> cases split
  | cons event rest ih =>
      rw [lostBy, Nat.add_eq_zero_iff, loss_eq_zero accounts, ih (accounts.next event)]
      constructor
      · rintro ⟨now, later⟩ before other after split
        cases before with
        | nil =>
            obtain ⟨rfl, -⟩ := List.cons.inj split
            exact now
        | cons first before =>
            obtain ⟨rfl, more⟩ := List.cons.inj split
            exact later before other after more
      · intro all
        exact ⟨all [] event rest rfl, fun before other after split =>
          all (event :: before) other after (by rw [split]; rfl)⟩

/-- The renderer keeps its bounds and the order in every run. It loses no count in a run that
closes it exactly when every event of the run reports what was dropped. -/
theorem losesNoCount_iff (config : RendererConfig) (host : RendererHost ρ)
    (events : List (RendererEvent ρ)) :
    LosesNoCount config (run config host events) ↔
      ((run config host events).closed = true →
        ∀ before event after, events = before ++ event :: after →
          Reports config host (run config host before) event) := by
  have accounts : Accounts config [] (0 + lostBy config host initial events)
      (run config host events) := accounts_initial.foldl events
  rw [Nat.zero_add] at accounts
  have start : Accounts config [] 0 (initial : Renderer ρ) := accounts_initial
  have reported : lostBy config host initial events = 0 ↔ _ := lostBy_eq_zero start events
  have total := accounts.total
  simp only [List.append_nil, counted_append] at total
  constructor
  · intro kept closed
    have same := kept.conserved closed
    obtain ⟨empty, none, -⟩ := accounts.emptied closed
    rw [empty, none] at total
    apply reported.mp
    simp only [counted_nil] at total
    omega
  · intro reports
    refine ⟨?_, accounts.count, accounts.size ▸ accounts.limit, fun closed => ?_⟩
    · refine List.Sublist.trans ?_ accounts.ordered
      simp [run]
    · obtain ⟨empty, none, -⟩ := accounts.emptied closed
      rw [reported.mpr (reports closed), empty, none] at total
      simpa [run] using total

/-! ## A report that is lost -/

/-- A queue of one line refuses the report of two drops and counts it as one. -/
theorem run_full_queue (host : RendererHost ρ) (blocks : ∀ n, host.answers n = false)
    (record : ρ) {renderer : Renderer ρ}
    (h : renderer = run ⟨4096, 1, 16384⟩ host [.consume record, .consume record,
      .consume record, .consume record, .drain, .advance, .advance, .close]) :
    renderer.closed = true ∧ counted renderer.written = 3 ∧ renderer.consumed.length = 4 := by
  subst h
  have room : byteLength (frame host.isFormat 4096 (host.stringify record ++ "\n")) ≤ 16384 :=
    Nat.le_trans (byteLength_frame_le host.isFormat 4096 _) (by decide)
  simp [run, next, consume, onDrain, advance, close, write, send, emit, hasRoom, initial, framed,
    notice, blocks, room, counted]

/-- An output that is always full, and records whose numbers are all one. -/
def fullOutput : RendererHost Json where
  stringify := Json.stringify fun _ => "1"
  isFormat x := x.toNat == 0xad
  answers _ := false

def dropNotice : Json := .obj [("schemaVersion", .num 1), ("type", .str "tool_activity_drop"),
  ("sequence", .num 1), ("timestamp", .str "2026-01-01T00:00:00.000Z"), ("dropped", .num 1),
  ("droppedCount", .num 1)]

theorem losesNoCount_refuted :
    ¬LosesNoCount ⟨4096, 1, 16384⟩ (run ⟨4096, 1, 16384⟩ fullOutput
      [.consume dropNotice, .consume dropNotice, .consume dropNotice, .consume dropNotice, .drain,
        .advance, .advance, .close]) := by
  intro kept
  obtain ⟨closed, counts, consumed⟩ := run_full_queue fullOutput (fun _ => rfl) dropNotice rfl
  have same := kept.conserved closed
  rw [counts, consumed] at same
  cases same

end AdCoder.Cli.Renderer
