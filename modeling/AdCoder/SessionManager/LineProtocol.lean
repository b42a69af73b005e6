import AdCoder.Foundation.Utf8Parts
import AdCoder.ProjectOperations.Pauses

/-!
# The line protocol of the session manager

A peer sends one request a line. Every chunk is decoded on its own and put behind what
is left of the ones before; the complete lines are answered one by one, and a buffer
that has grown too long ends the connection.
-/

namespace AdCoder.SessionManager

open Foundation Foundation.Regex Utf8
open ProjectOperations (unitsOf)

/-- `MAX_FRAME_BYTES`. -/
def maxFrameBytes : Nat := 256 * 1024

/-- The error part of a response. -/
structure RequestFailure where
  code : String
  message : String
  retryable : Bool
  nextAction : Option String
  deriving DecidableEq

inductive JsonResponse (ρ : Type) where
  | ok (result : ρ)
  | failed (error : RequestFailure)

inductive Event (ρ : Type) where
  | request (line : List Char)
  | response (response : JsonResponse ρ)

/-- What a connection did, and the error that ended it, if one did. -/
structure Protocol (ρ : Type) where
  events : List (Event ρ)
  thrown : Option RequestFailure

section Server

variable {σ ρ : Type} (format : NumberFormat)
  (dispatchRequest : σ → List (String × Json) → σ × JsonResponse ρ)

/-- The response to a line. A text that is no JSON is not typed, so it is reported as a
state that could not be validated. -/
def respond (manager : σ) (line : List Char) : σ × JsonResponse ρ :=
  if (trimList line).isEmpty then
    (manager, .failed ⟨"invalid_request",
      "an empty request line is not a session-manager request", false, none⟩)
  else match JsonText.parse format line with
    | none => (manager, .failed ⟨"manager_unavailable",
        "the session-manager state could not be validated", true, none⟩)
    | some (.obj fields) => dispatchRequest manager fields
    | some _ => (manager, .failed ⟨"invalid_request",
        "a session-manager request must be a JSON object", false,
        some "send a JSON object with a method field"⟩)

structure Served (σ ρ : Type) where
  events : List (Event ρ)
  manager : σ
  buffer : List Char

/-- One line, one response, before the next. What follows the last newline stays. -/
def serve (manager : σ) : List (List Char) → Served σ ρ
  | [] => ⟨[], manager, []⟩
  | [rest] => ⟨[], manager, rest⟩
  | line :: next :: more =>
      let response := respond format dispatchRequest manager line
      let served := serve response.1 (next :: more)
      { served with events := .request line :: .response response.2 :: served.events }

/-- `buffer.length`. -/
def bufferLength (buffer : List Char) : Nat := (buffer.map unitsOf).sum

def oversized : RequestFailure :=
  ⟨"invalid_request", "a request exceeded the per-connection frame cap", false,
    some "send smaller requests"⟩

/-- `runProtocol`, from a buffer on. -/
def runProtocol (manager : σ) (buffer : List Char) : List (List Nat) → Protocol ρ
  | [] => ⟨[], none⟩
  | chunk :: later =>
      let received := buffer ++ lossy chunk
      if maxFrameBytes < bufferLength received then ⟨[], some oversized⟩
      else
        let served := serve format dispatchRequest manager (received.splitOn '\n')
        let rest := runProtocol served.manager served.buffer later
        { rest with events := served.events ++ rest.events }

end Server

/-! ## What is promised -/

def Event.line? {ρ : Type} : Event ρ → Option (List Char)
  | .request line => some line
  | .response _ => none

def requests {ρ : Type} (events : List (Event ρ)) : List (List Char) :=
  events.filterMap Event.line?

/-- Every request is answered once, before the next one. -/
def Answered {ρ : Type} : List (Event ρ) → Prop
  | [] => True
  | .request _ :: .response _ :: later => Answered later
  | _ => False

/-- The complete lines up to the first that is too long; the lines of the bytes are those
of their text (`lossy_splitOn`). -/
def acceptedLines (bytes : List Nat) : List (List Char) :=
  ((bytes.splitOn 0x0a).dropLast.takeWhile fun line => line.length ≤ maxFrameBytes).map lossy

/-- The protocol on the bytes of a peer, however they came. -/
structure ServesLines {ρ : Type} (bytes : List Nat) (protocol : Protocol ρ) : Prop where
  dispatched : requests protocol.events = acceptedLines bytes
  answered : Answered protocol.events
  refused : protocol.thrown.isSome = true →
    ∃ line ∈ bytes.splitOn 0x0a, maxFrameBytes < line.length

/-! ## When it holds -/

/-- The line that is being received: its bytes, their text as it was decoded part by
part, and whether no part ended inside a character. -/
structure Partial where
  bytes : List Nat
  text : List Char
  whole : Bool

namespace Partial

def empty : Partial := ⟨[], [], true⟩

def add (line : Partial) (part : List Nat) : Partial :=
  ⟨line.bytes ++ part, line.text ++ lossy part, line.whole && !cuts line.bytes part⟩

end Partial

/-- No complete line is cut inside a character or longer than the cap; and a chunk that
overfills the buffer finds a line that is too long at its start. -/
def Orderly (line : Partial) : List (List Nat) → Prop
  | [] => True
  | chunk :: later =>
      let parts := chunk.splitOn 0x0a
      let received := line.add (parts.headD [])
      if maxFrameBytes < bufferLength (line.text ++ lossy chunk) then
        maxFrameBytes < received.bytes.length
      else match parts.tail.getLast? with
        | none => Orderly received later
        | some last =>
            received.whole = true ∧
              (∀ bytes ∈ received.bytes :: parts.tail.dropLast,
                bytes.length ≤ maxFrameBytes) ∧
              Orderly (Partial.empty.add last) later

/-! ## One buffer -/

section Serve

variable {σ ρ : Type} {format : NumberFormat}
  {dispatchRequest : σ → List (String × Json) → σ × JsonResponse ρ}

@[simp] theorem requests_append (front back : List (Event ρ)) :
    requests (front ++ back) = requests front ++ requests back :=
  List.filterMap_append

/-- Behind answered requests, only what follows matters. -/
theorem answered_append {front back : List (Event ρ)} (first : Answered front) :
    Answered (front ++ back) ↔ Answered back := by
  induction front using Answered.induct with
  | case1 => exact Iff.rfl
  | case2 line response rest ih => exact ih first
  | case3 events none other => simp [Answered] at first

/-- Every line but the last is dispatched and answered, and the last one stays. -/
theorem serve_spec (manager : σ) {lines : List (List Char)} (some : lines ≠ []) :
    requests (serve format dispatchRequest manager lines).events = lines.dropLast ∧
      Answered (serve format dispatchRequest manager lines).events ∧
      (serve format dispatchRequest manager lines).buffer = lines.getLast some := by
  induction lines generalizing manager with
  | nil => exact absurd rfl some
  | cons line rest ih =>
      cases rest with
      | nil => exact ⟨rfl, trivial, rfl⟩
      | cons next more =>
          obtain ⟨dispatched, answered, buffer⟩ :=
            ih (respond format dispatchRequest manager line).1 (List.cons_ne_nil next more)
          refine ⟨?_, answered, ?_⟩
          · rw [List.dropLast_cons_of_ne_nil (List.cons_ne_nil next more), ← dispatched]
            rfl
          · rw [List.getLast_cons (List.cons_ne_nil next more), ← buffer]
            rfl

end Serve

/-! ## The line that is received -/

namespace Partial

/-- What is known of a line that is being received. -/
structure Held (line : Partial) : Prop where
  fresh : 0x0a ∉ line.bytes
  clean : '\n' ∉ line.text
  units : bufferLength line.text ≤ line.bytes.length
  decoded : (line.whole = true ∧ line.text = lossy line.bytes) ∨
    (line.whole = false ∧ (lossy line.bytes).length < line.text.length)

theorem held_empty : empty.Held :=
  ⟨by simp [empty], by simp [empty], Nat.zero_le _, .inl ⟨rfl, rfl⟩⟩

theorem bufferLength_append (front back : List Char) :
    bufferLength (front ++ back) = bufferLength front + bufferLength back := by
  simp [bufferLength]

theorem bufferLength_lossy (bytes : List Nat) : bufferLength (lossy bytes) ≤ bytes.length := by
  refine sum_lossy_le (fun x small => ?_) (fun x => ?_) bytes
  · simp [unitsOf, small]
  · unfold unitsOf
    split_ifs <;> decide

theorem Held.add {line : Partial} (held : line.Held) {part : List Nat} (fresh : 0x0a ∉ part) :
    (line.add part).Held := by
  refine ⟨?_, ?_, ?_, ?_⟩
  · simp [Partial.add, held.fresh, fresh]
  · have clean : '\n' ∉ lossy part := fun newline => fresh (mem_of_lossy (by decide) newline)
    simp [Partial.add, held.clean, clean]
  · have first := held.units
    have second := bufferLength_lossy part
    rw [Partial.add, bufferLength_append, List.length_append]
    omega
  · obtain ⟨uncut, eq⟩ | ⟨cut, less⟩ := lossy_append line.bytes part
    · obtain ⟨whole, text⟩ | ⟨broken, longer⟩ := held.decoded
      · exact .inl ⟨by simp [Partial.add, whole, uncut], by simp [Partial.add, text, eq]⟩
      · refine .inr ⟨by simp [Partial.add, broken], ?_⟩
        simp only [Partial.add, eq, List.length_append]
        omega
    · have least : (lossy line.bytes).length ≤ line.text.length := by
        obtain ⟨-, text⟩ | ⟨-, longer⟩ := held.decoded
        · rw [text]
        · omega
      refine .inr ⟨by simp [Partial.add, cut], ?_⟩
      simp only [Partial.add, List.length_append]
      omega

/-- The parts give the text of the line just when none ended inside a character. -/
theorem Held.whole_iff {line : Partial} (held : line.Held) :
    line.text = lossy line.bytes ↔ line.whole = true := by
  obtain ⟨whole, text⟩ | ⟨broken, longer⟩ := held.decoded
  · simp [whole, text]
  · simp only [broken, Bool.false_eq_true, iff_false]
    intro text
    rw [text] at longer
    omega

end Partial

/-! ## Runs -/

/-- The lines of a front and of what follows are accepted together just when every line
of the front is accepted as it was decoded. -/
theorem accepted_append {front back : List (List Nat)} {texts more : List (List Char)}
    (same : texts.length = front.length) :
    texts ++ more = ((front ++ back).takeWhile fun line => line.length ≤ maxFrameBytes).map
        lossy ↔
      (∀ line ∈ front, line.length ≤ maxFrameBytes) ∧ texts = front.map lossy ∧
        more = (back.takeWhile fun line => line.length ≤ maxFrameBytes).map lossy := by
  induction front generalizing texts with
  | nil =>
      obtain rfl := List.length_eq_zero_iff.mp same
      simp
  | cons line front ih =>
      cases texts with
      | nil => simp at same
      | cons text texts =>
          have rest := @ih texts (by simpa using same)
          by_cases fits : line.length ≤ maxFrameBytes
          · simp [fits, rest]
            tauto
          · simp [fits]

section Runs

variable {σ ρ : Type} {format : NumberFormat}
  {dispatchRequest : σ → List (String × Json) → σ × JsonResponse ρ}

/-- The pieces of what is received behind a line. -/
theorem received_splitOn {line : Partial} (held : line.Held) {chunk first : List Nat}
    {rest : List (List Nat)} (split : chunk.splitOn 0x0a = first :: rest) :
    (line.text ++ lossy chunk).splitOn '\n' = (line.text ++ lossy first) :: rest.map lossy ∧
      (line.bytes ++ chunk).splitOn 0x0a = (line.bytes ++ first) :: rest := by
  constructor
  · refine splitOn_front held.clean ?_
    rw [lossy_splitOn, split, List.map_cons]
  · exact splitOn_front held.fresh split

/-- A chunk without a newline goes to the line that is being received. -/
theorem single_of_splitOn {chunk first : List Nat} (split : chunk.splitOn 0x0a = [first]) :
    chunk = first := by
  have joined : [0x0a].intercalate (chunk.splitOn 0x0a) = chunk :=
    List.intercalate_splitOn 0x0a
  rw [split] at joined
  simpa using joined.symm

/-- The complete lines of what came, before those of what follows. -/
theorem acceptedLines_append {bytes last : List Nat} {front : List (List Nat)}
    (split : bytes.splitOn 0x0a = front ++ [last]) (more : List Nat) :
    acceptedLines (bytes ++ more) = ((front ++ ((last ++ more).splitOn 0x0a).dropLast).takeWhile
      fun line => line.length ≤ maxFrameBytes).map lossy := by
  rw [acceptedLines, splitOn_append split, List.dropLast_append_of_ne_nil
    (List.splitOn_ne_nil _ _)]

/-- The first line of a buffer is refused when it is too long, whatever follows. -/
theorem acceptedLines_of_long {bytes first : List Nat} {rest : List (List Nat)}
    (split : bytes.splitOn 0x0a = first :: rest) (long : maxFrameBytes < first.length)
    (more : List Nat) :
    acceptedLines (bytes ++ more) = [] ∧
      ∃ line ∈ (bytes ++ more).splitOn 0x0a, maxFrameBytes < line.length := by
  rcases List.eq_nil_or_concat rest with rfl | ⟨middle, last, rfl⟩
  · obtain ⟨head, tail, later⟩ := List.exists_cons_of_ne_nil (List.splitOn_ne_nil 0x0a more)
    have whole := single_of_splitOn split
    have fresh : 0x0a ∉ bytes := by
      rw [whole]
      exact separator_notMem_splitOn (split ▸ List.mem_cons_self)
    have front := splitOn_front fresh later
    have exceeds : maxFrameBytes < (bytes ++ head).length := by
      rw [List.length_append, whole]
      omega
    refine ⟨?_, bytes ++ head, by simp [front], exceeds⟩
    rw [acceptedLines, front]
    cases tail with
    | nil => rfl
    | cons next tail =>
        rw [List.dropLast_cons_of_ne_nil (List.cons_ne_nil next tail),
          List.takeWhile_cons_of_neg (by simpa using exceeds)]
        rfl
  · rw [List.concat_eq_append, ← List.cons_append] at split
    refine ⟨?_, first, by simp [splitOn_append split], long⟩
    rw [acceptedLines_append split, List.cons_append, List.takeWhile_cons_of_neg (by simpa using long)]
    rfl

/-- A chunk that overfills the buffer is refused for a line that is too long at its start,
or for no line at all. -/
theorem serves_overfull {line : Partial} (held : line.Held) {chunk first more : List Nat}
    {rest : List (List Nat)} (split : chunk.splitOn 0x0a = first :: rest)
    (exceeds : maxFrameBytes < bufferLength (line.text ++ lossy chunk)) :
    ServesLines (line.bytes ++ (chunk ++ more)) (⟨[], some oversized⟩ : Protocol ρ) ↔
      maxFrameBytes < (line.add first).bytes.length := by
  have pieces := (received_splitOn held split).2
  rw [← List.append_assoc]
  constructor
  · intro serves
    by_contra fits
    rcases List.eq_nil_or_concat rest with rfl | ⟨middle, last, rfl⟩
    · have units := (held.add (separator_notMem_splitOn (split ▸ List.mem_cons_self))).units
      rw [single_of_splitOn split] at exceeds
      exact fits (Nat.lt_of_lt_of_le exceeds units)
    · have dispatched := serves.dispatched
      rw [List.concat_eq_append, ← List.cons_append] at pieces
      rw [acceptedLines_append pieces, List.cons_append,
        List.takeWhile_cons_of_pos (by simpa [Partial.add] using fits)] at dispatched
      cases dispatched
  · intro long
    obtain ⟨none, found⟩ := acceptedLines_of_long pieces long more
    exact ⟨none.symm, trivial, fun _ => found⟩

/-- Lines that came in one buffer: they are dispatched as they were accepted just when
they fit and the first of them is whole. -/
theorem serves_step {line : Partial} (held : line.Held) {chunk first last more : List Nat}
    {middle : List (List Nat)} (split : chunk.splitOn 0x0a = first :: (middle ++ [last]))
    {events : List (Event ρ)} (answered : Answered events)
    (dispatched : requests events = (line.text ++ lossy first) :: middle.map lossy)
    (rest : Protocol ρ) :
    ServesLines (line.bytes ++ (chunk ++ more)) { rest with events := events ++ rest.events } ↔
      (line.add first).whole = true ∧
        (∀ bytes ∈ (line.add first).bytes :: middle, bytes.length ≤ maxFrameBytes) ∧
        ServesLines (last ++ more) rest := by
  have pieces := (received_splitOn held split).2
  have fresh : 0x0a ∉ first := separator_notMem_splitOn (split ▸ List.mem_cons_self)
  rw [← List.cons_append] at pieces
  have accepted := acceptedLines_append pieces more
  have all := splitOn_append pieces more
  have whole := (held.add fresh).whole_iff
  have texts : (line.text ++ lossy first) :: middle.map lossy =
      ((line.bytes ++ first) :: middle).map lossy ↔ (line.add first).whole = true := by
    rw [← whole]
    simp [Partial.add]
  have same := @accepted_append ((line.bytes ++ first) :: middle)
    ((last ++ more).splitOn 0x0a).dropLast ((line.text ++ lossy first) :: middle.map lossy)
    (requests rest.events) (by simp)
  rw [texts] at same
  rw [← List.append_assoc]
  constructor
  · intro serves
    have lines := serves.dispatched
    rw [requests_append, dispatched, accepted] at lines
    obtain ⟨fit, wholly, later⟩ := same.mp lines
    refine ⟨wholly, fit, later, (answered_append answered).mp serves.answered,
      fun thrown => ?_⟩
    · obtain ⟨long, mem, exceeds⟩ := serves.refused thrown
      rw [all] at mem
      obtain front | back := List.mem_append.mp mem
      · have := fit long front
        omega
      · exact ⟨long, back, exceeds⟩
  · rintro ⟨wholly, fit, serves⟩
    refine ⟨?_, (answered_append answered).mpr serves.answered, fun thrown => ?_⟩
    · rw [requests_append, dispatched, accepted]
      exact same.mpr ⟨fit, wholly, serves.dispatched⟩
    · obtain ⟨long, mem, exceeds⟩ := serves.refused thrown
      exact ⟨long, all ▸ List.mem_append_right _ mem, exceeds⟩

theorem serves_lines_from {line : Partial} (held : line.Held) (manager : σ)
    (chunks : List (List Nat)) :
    ServesLines (line.bytes ++ chunks.flatten)
        (runProtocol format dispatchRequest manager line.text chunks) ↔
      Orderly line chunks := by
  induction chunks generalizing line manager with
  | nil =>
      have single := List.splitOn_eq_singleton held.fresh
      simp only [List.flatten_nil, List.append_nil, runProtocol, Orderly, iff_true]
      exact ⟨by rw [acceptedLines, single]; rfl, trivial, nofun⟩
  | cons chunk later ih =>
      obtain ⟨first, rest, split⟩ := List.exists_cons_of_ne_nil
        (List.splitOn_ne_nil 0x0a chunk)
      have fresh : 0x0a ∉ first := separator_notMem_splitOn (split ▸ List.mem_cons_self)
      have texts := (received_splitOn held split).1
      rw [List.flatten_cons]
      by_cases exceeds : maxFrameBytes < bufferLength (line.text ++ lossy chunk)
      · simp only [runProtocol, Orderly, split, if_pos exceeds, List.headD_cons]
        exact serves_overfull held split exceeds
      · simp only [runProtocol, Orderly, split, if_neg exceeds, List.headD_cons, List.tail_cons]
        rcases List.eq_nil_or_concat rest with rfl | ⟨middle, last, rfl⟩
        · have step := ih (held.add fresh) manager
          rw [texts]
          simp only [List.getLast?_nil, List.map_nil, serve, List.nil_append]
          rw [← step, Partial.add, List.append_assoc, single_of_splitOn split]
        · rw [List.concat_eq_append] at split texts ⊢
          have closed : 0x0a ∉ last := separator_notMem_splitOn (by rw [split]; simp)
          have lines : (line.text ++ lossy chunk).splitOn '\n' =
              ((line.text ++ lossy first) :: middle.map lossy) ++ [lossy last] := by
            rw [texts, List.map_append, List.cons_append]
            rfl
          obtain ⟨dispatched, answered, buffer⟩ := @serve_spec σ ρ format dispatchRequest manager
            _ (List.splitOn_ne_nil '\n' (line.text ++ lossy chunk))
          simp only [lines, List.dropLast_concat, List.getLast_concat] at dispatched answered buffer
          have step := ih (Partial.held_empty.add closed) (serve format dispatchRequest manager
            (((line.text ++ lossy first) :: middle.map lossy) ++ [lossy last])).manager
          rw [lines, buffer]
          simp only [List.getLast?_concat, List.dropLast_concat]
          rw [← step]
          exact serves_step held split answered dispatched _

/-- The lines of a peer are served the same however its bytes are cut into chunks, just
when the chunks are orderly. -/
theorem serves_lines_iff (format : NumberFormat)
    (dispatchRequest : σ → List (String × Json) → σ × JsonResponse ρ) (manager : σ)
    (chunks : List (List Nat)) :
    ServesLines chunks.flatten (runProtocol format dispatchRequest manager [] chunks) ↔
      Orderly Partial.empty chunks :=
  serves_lines_from Partial.held_empty manager chunks

/-- A letter of two bytes that comes in two chunks is dispatched as two other characters. -/
theorem serves_lines_refuted :
    [[0xc3], [0xa9, 0x0a]].flatten = encode ['é', '\n'] ∧
    ¬ ServesLines [[0xc3], [0xa9, 0x0a]].flatten
      (runProtocol ⟨fun _ => .nan, fun _ => ""⟩ (fun (_ : Unit) _ => ((), JsonResponse.ok ())) ()
        [] [[0xc3], [0xa9, 0x0a]]) := by
  refine ⟨by simp [encodeChar_eq], fun serves => ?_⟩
  have orderly : Orderly Partial.empty [[0xc3], [0xa9, 0x0a]] :=
    (serves_lines_from Partial.held_empty () [[0xc3], [0xa9, 0x0a]]).mp serves
  have front : [0xc3].splitOn 0x0a = [[0xc3]] := rfl
  have back : [0xa9, 0x0a].splitOn 0x0a = [[0xa9], []] := rfl
  have short : bufferLength (lossy [0xc3]) = 1 := rfl
  have longer : bufferLength (lossy [0xc3] ++ lossy [0xa9, 0x0a]) = 3 := rfl
  simp [Orderly, front, back, short, longer, maxFrameBytes, Partial.empty, Partial.add, cuts,
    wants, wantWide, wantTail] at orderly

end Runs

end AdCoder.SessionManager
