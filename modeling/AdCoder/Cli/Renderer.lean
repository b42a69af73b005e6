import AdCoder.Foundation.Json
import AdCoder.Foundation.Runs
import Mathlib.Algebra.BigOperators.Group.List.Basic
import Mathlib.Algebra.GroupWithZero.Nat

/-!
# The activity renderer in JSON mode

Lines go to the output until it answers that it is full; then they wait in a bounded
queue, and what the queue refuses is counted. A drain event reports the count in a line
of its own, which goes through the same queue.
-/

namespace AdCoder.Cli

open Foundation

/-- What a line stands for: a consumed record, or a number of dropped lines. -/
inductive LineSource (ρ : Type) where
  | record (record : ρ)
  | drop (dropped : Nat)
  deriving DecidableEq

namespace LineSource

variable {ρ : Type}

def record? : LineSource ρ → Option ρ
  | record r => some r
  | drop _ => none

/-- The consumed records that the line accounts for. -/
def weight : LineSource ρ → Nat
  | record _ => 1
  | drop dropped => dropped

@[simp] theorem record?_record (r : ρ) : (record r).record? = some r := rfl

@[simp] theorem record?_drop (dropped : Nat) : (drop dropped : LineSource ρ).record? = none := rfl

@[simp] theorem weight_record (r : ρ) : (record r).weight = 1 := rfl

@[simp] theorem weight_drop (dropped : Nat) : (drop dropped : LineSource ρ).weight = dropped := rfl

end LineSource

structure RenderLine (ρ : Type) where
  text : String
  source : LineSource ρ
  deriving DecidableEq

/-- The part of `ToolActivityConfig` that the renderer reads in JSON mode. -/
structure RendererConfig where
  renderedLineBytes : Nat
  renderQueueCount : Nat
  renderQueueBytes : Nat

/-- How the host writes a record, which characters are in `\p{Cf}`, and what the output
answers to each line it is given. -/
structure RendererHost (ρ : Type) where
  stringify : ρ → String
  isFormat : Char → Bool
  answers : Nat → Bool

/-! ## Lines -/

/-- The characters of a bounded text, from the code units inspected and the bytes kept so far. -/
def boundChars (isFormat : Char → Bool) (maxBytes : Nat) : Nat → Nat → List Char → List Char
  | _, _, [] => []
  | inspected, bytes, x :: rest =>
      let inspected := inspected + (codeUnits (String.singleton x)).length
      if maxBytes * 8 < inspected then []
      else if x.toNat < 0x20 || x.toNat == 0x7f || x.toNat == 0x9b || isFormat x then
        boundChars isFormat maxBytes inspected bytes rest
      else if maxBytes < bytes + x.utf8Size then []
      else x :: boundChars isFormat maxBytes inspected (bytes + x.utf8Size) rest

def boundToolActivityText (isFormat : Char → Bool) (maxBytes : Nat) (value : String) : String :=
  String.ofList (boundChars isFormat maxBytes 0 0 value.toList)

/-- A bounded text with its newline. -/
def frame (isFormat : Char → Bool) (maxBytes : Nat) (raw : String) : String :=
  let line := boundToolActivityText isFormat maxBytes raw
  if line.toList.getLast? = some '\n' then line else line ++ "\n"

/-- The text of a drop line. -/
def dropLine (dropped : Nat) (final : Bool) : String :=
  Json.objectText [("schemaVersion", "1"), ("type", Json.quote "tool_activity_render_drop"),
    ("dropped", Nat.repr dropped), ("final", if final then "true" else "false")] ++ "\n"

/-! ## The renderer -/

/-- The fields of the renderer, whether it is in the loop of a drain event, the records it
consumed and the lines it gave to the output. -/
structure Renderer (ρ : Type) where
  queue : List (RenderLine ρ)
  queuedBytes : Nat
  dropped : Nat
  blocked : Bool
  closed : Bool
  draining : Bool
  consumed : List ρ
  written : List (RenderLine ρ)
  deriving DecidableEq

inductive RendererEvent (ρ : Type) where
  | consume (record : ρ)
  | drain
  | advance
  | close
  deriving DecidableEq

namespace Renderer

variable {ρ : Type} (config : RendererConfig) (host : RendererHost ρ)

def initial : Renderer ρ := ⟨[], 0, 0, false, false, false, [], []⟩

variable (renderer : Renderer ρ)

/-- `output.write(line)`. -/
def emit (line : RenderLine ρ) : Renderer ρ :=
  { renderer with written := renderer.written ++ [line] }

/-- `blocked = !output.write(line)`. -/
def send (line : RenderLine ρ) : Renderer ρ :=
  { renderer.emit line with blocked := !host.answers renderer.written.length }

/-- Whether the queue takes a line. -/
def hasRoom (line : RenderLine ρ) : Bool :=
  renderer.queue.length < config.renderQueueCount &&
    renderer.queuedBytes + byteLength line.text ≤ config.renderQueueBytes

def framed (source : LineSource ρ) (raw : String) : RenderLine ρ :=
  ⟨frame host.isFormat config.renderedLineBytes raw, source⟩

def write (line : RenderLine ρ) : Renderer ρ :=
  if !renderer.blocked && renderer.queue.isEmpty then renderer.send host line
  else if renderer.hasRoom config line then
    { renderer with
      queue := renderer.queue ++ [line]
      queuedBytes := renderer.queuedBytes + byteLength line.text }
  else { renderer with dropped := renderer.dropped + 1 }

/-- The line that a drain event reports the drops in. -/
def notice : RenderLine ρ :=
  framed config host (.drop renderer.dropped) (dropLine renderer.dropped false)

def consume (record : ρ) : Renderer ρ :=
  { renderer with consumed := renderer.consumed ++ [record] }.write config host
    (framed config host (.record record) (host.stringify record ++ "\n"))

/-- A drain event, up to its loop. -/
def onDrain : Renderer ρ :=
  let renderer := { renderer with blocked := false, draining := true }
  if 0 < renderer.dropped then
    { renderer with dropped := 0 }.write config host (notice config host renderer)
  else renderer

/-- One round of the loop of a drain event. -/
def advance : Renderer ρ :=
  match renderer.queue with
  | line :: rest =>
      if renderer.blocked then { renderer with draining := false }
      else { renderer with
        queue := rest
        queuedBytes := renderer.queuedBytes - byteLength line.text }.send host line
  | [] => { renderer with draining := false }

def close : Renderer ρ :=
  let lostOnClose := renderer.dropped + renderer.queue.length
  let emptied := { renderer with queue := [], queuedBytes := 0, dropped := 0 }
  let reported := if 0 < lostOnClose then
    emptied.emit ⟨dropLine lostOnClose true, .drop lostOnClose⟩ else emptied
  { reported with closed := true }

/-- What an event does. A closed renderer ignores it, and none comes before a drain's loop
has ended. -/
def next (renderer : Renderer ρ) : RendererEvent ρ → Renderer ρ
  | .consume record =>
      if renderer.closed || renderer.draining then renderer else renderer.consume config host record
  | .drain =>
      if renderer.closed || renderer.draining then renderer else renderer.onDrain config host
  | .advance => if renderer.draining then renderer.advance host else renderer
  | .close => if renderer.closed || renderer.draining then renderer else renderer.close

def run (events : List (RendererEvent ρ)) : Renderer ρ := events.foldl (next config host) initial

/-! ## What the renderer promises -/

def records (lines : List (RenderLine ρ)) : List ρ := lines.filterMap (·.source.record?)

/-- The records that the lines account for. -/
def counted (lines : List (RenderLine ρ)) : Nat := (lines.map (·.source.weight)).sum

def bytes (lines : List (RenderLine ρ)) : Nat := (lines.map fun line => byteLength line.text).sum

structure LosesNoCount : Prop where
  ordered : (records renderer.written).Sublist renderer.consumed
  count : renderer.queue.length ≤ config.renderQueueCount
  size : bytes renderer.queue ≤ config.renderQueueBytes
  conserved : renderer.closed = true → counted renderer.written = renderer.consumed.length

/-- A drain event finds at most one drop or room for the line that reports them, and a close
finds no line in the queue that reports more than one. -/
def Reports (renderer : Renderer ρ) : RendererEvent ρ → Prop
  | .drain => renderer.closed = false → renderer.draining = false →
      renderer.dropped ≤ 1 ∨ renderer.queue = [] ∨
        renderer.hasRoom config (notice config host renderer) = true
  | .close => renderer.closed = false → renderer.draining = false →
      ∀ line ∈ renderer.queue, line.source.weight = 1
  | _ => True

end Renderer

end AdCoder.Cli
