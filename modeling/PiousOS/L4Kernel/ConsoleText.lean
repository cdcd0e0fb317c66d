import PiousOS.Core.TextLayout
import PiousOS.L4Kernel.Console
import PiousOS.L4Kernel.FormatLanguage

/-!
# What is on the screen

The console from the format string to the pixels: a `Message` is a call of
`PrintString` with a format that can be read and arguments that are printed
exactly, in the characters of the font. After any messages the screen is the
picture of the last rows of their text, laid out in as many columns as fit.

* `runTerminal_eq_write`: console operations are text written to the terminal;
* `printMessages_shows`: messages on any display that shows a terminal;
* `messages_on_screen`: from `InitializeDisplay` on, pixel by pixel.
-/
namespace PiousOS.Kernel
open Terminal

/-! ## Operations as text -/

/-- The character of an operation, none for a line end. -/
def ConsoleOp.text : ConsoleOp → Option Glyph
  | .char chr fg bg => some ⟨chr, fg, bg⟩
  | .newline => none

theorem runTerminal_eq_write {R C : Nat} (ops : List ConsoleOp) (t : Terminal R C Glyph) :
    runTerminal ops t = t.write (ops.map ConsoleOp.text) := by
  induction ops generalizing t with
  | nil => rfl
  | cons op ops ih =>
    have hstep : op.apply t = t.step op.text := by cases op <;> rfl
    have hrun : runTerminal (op :: ops) t = runTerminal ops (op.apply t) := rfl
    rw [hrun, ih, hstep]
    rfl

/-- A picture depends on the cells of the grid only. -/
theorem picture_congr {background : UINT32} {n R C : Nat} {cells cells' : Nat → Nat → Option Glyph}
    (h : ∀ r c, r < R → c < C → cells r c = cells' r c) (x y : Nat) :
    picture background n R C cells x y = picture background n R C cells' x y := by
  unfold picture
  split
  · next hin => rw [h _ _ hin.2 hin.1]
  · rfl

/-! ## Messages -/

/-- A call of `PrintString` that prints what it should. -/
structure Message where
  call : PrintCall
  directives : List Directive
  spelled : Directives call.fmt 0 directives
  exact_args : ExactArgs call directives 0
  inTable : ∀ op ∈ render call directives 0, op.InTable

namespace Message

def ops (m : Message) : List ConsoleOp := render m.call m.directives 0

/-- The text of messages, one after the other. -/
def textOf (ms : List Message) : List (Option Glyph) := (ms.flatMap ops).map ConsoleOp.text

end Message

/-- The calls of `PrintString` for messages. -/
def printMessages (behind : UINT8 → Nat → UINT8) (fuel : Nat) (ms : List Message) (d : Display) :
    Option Display :=
  ms.foldlM (fun d m => PrintString m.call behind fuel d) d

section
variable {gpu : EFI_GRAPHICS_OUTPUT_PROTOCOL_MODE} {n fuel : Nat} {background : UINT32} {d : Display}
  {behind : UINT8 → Nat → UINT8} {ms : List Message}

/-- Messages return, with their operations done. -/
theorem printMessages_eq (hfuel : ∀ m ∈ ms, m.directives.length + 2099 < fuel) :
    printMessages behind fuel ms d = some (runConsole behind (ms.flatMap Message.ops) d) := by
  induction ms generalizing d with
  | nil => rfl
  | cons m ms ih =>
    have hm : PrintString m.call behind fuel d = some (runConsole behind m.ops d) :=
      PrintString_directives m.spelled m.exact_args (hfuel m List.mem_cons_self) behind d
    have hrest := ih (d := runConsole behind m.ops d) fun m' hm' => hfuel m' (List.mem_cons_of_mem m hm')
    rw [printMessages, List.foldlM_cons, hm, Option.bind_eq_bind, Option.bind_some, ← printMessages, hrest,
      List.flatMap_cons, runConsole, runConsole, runConsole, List.foldl_append]

theorem ops_inTable : ∀ op ∈ ms.flatMap Message.ops, op.InTable := by
  intro op hop
  obtain ⟨m, -, hm⟩ := List.mem_flatMap.mp hop
  exact m.inTable op hm

/-- They write their text to the terminal that the display shows. -/
theorem printMessages_shows (hg : Geometry gpu) (hp : gpu.PixelsPerScanLine = gpu.HorizontalResolution)
    {t : Terminal (textRows gpu n) (textCols gpu n) Glyph} (h : Shows gpu n background d t)
    (hfuel : ∀ m ∈ ms, m.directives.length + 2099 < fuel) :
    ∃ d', printMessages behind fuel ms d = some d' ∧
      Shows gpu n background d' (t.write (Message.textOf ms)) := by
  refine ⟨_, printMessages_eq hfuel, ?_⟩
  rw [Message.textOf, ← runTerminal_eq_write]
  exact run_shows hg hp ops_inTable h

end

/-- The screen shows the last rows of a text, in the scale and on the
background of `InitializeDisplay`. -/
def ScreenShows (gpu : EFI_GRAPHICS_OUTPUT_PROTOCOL_MODE) (d : Display) (text : List (Option Glyph)) : Prop :=
  let n := (pickScale gpu).toNat
  ∀ x y, x < gpu.HorizontalResolution.toNat → y < gpu.VerticalResolution.toNat →
    d.fb (pixel gpu x y) = picture 0x00000000 n (textRows gpu n) (textCols gpu n)
      (lastRows (textRows gpu n) (layout (textCols gpu n) text)) x y

theorem screenShows_of_shows {gpu : EFI_GRAPHICS_OUTPUT_PROTOCOL_MODE} (hg : Geometry gpu) {d : Display}
    {text : List (Option Glyph)}
    (h : Shows gpu (pickScale gpu).toNat 0x00000000 d ((blankTerminal hg).write text)) :
    ScreenShows gpu d text := by
  have hcols := textCols_pos hg (pickScale_isScale gpu)
  have hrows := textRows_pos hg (pickScale_isScale gpu)
  intro x y hx hy
  rw [h.pixels x y hx hy]
  exact picture_congr (blank_write hrows hcols text) x y

/-- **Messages come out on the screen.** On any screen without back porch, any
calls of `PrintString` in the characters of the font, with arguments that are
exact, return, and every pixel is that of the picture of their text: the last
rows of its layout, no character lost or out of order. -/
theorem messages_on_screen (gpu : EFI_GRAPHICS_OUTPUT_PROTOCOL_MODE) (hg : Geometry gpu)
    (hp : gpu.PixelsPerScanLine = gpu.HorizontalResolution) (behind : UINT8 → Nat → UINT8) (d : Display)
    (ms : List Message) (fuel : Nat) (hfuel : ∀ m ∈ ms, m.directives.length + 2099 < fuel) :
    (∃ d', printMessages behind fuel ms (InitializeDisplay gpu d) = some d' ∧
      ScreenShows gpu d' (Message.textOf ms)) ∧
    let rows := layout (textCols gpu (pickScale gpu).toNat) (Message.textOf ms)
    rows.flatten = (Message.textOf ms).filterMap id ∧
      ∀ row ∈ rows, row.length ≤ textCols gpu (pickScale gpu).toNat := by
  have hcols := textCols_pos hg (pickScale_isScale gpu)
  obtain ⟨d', hrun, hshow⟩ := printMessages_shows hg hp (InitializeDisplay_shows hg d) hfuel
  exact ⟨⟨d', hrun, screenShows_of_shows hg hshow⟩, layout_flatten _, layout_length_le hcols _⟩

/-- `PrintString("0x%lX\n", 0xC0DE)`, in white. -/
def codeMessage : Message where
  call := hexLine 0xC0DE
  directives := directivesOf ['0', 'x', '%', 'l', 'X', '\n']
  spelled := directives_formatOf (by decide)
  exact_args := exactArgs_of_total (by decide) 0
  inTable := by decide

theorem messages_on_screen_twice :
    ∃ d', printMessages (fun _ _ => 0) 3000 [codeMessage, codeMessage]
        (InitializeDisplay screen40 (panelOff screen40)) = some d' ∧
      ScreenShows screen40 d' (Message.textOf [codeMessage, codeMessage]) :=
  (messages_on_screen screen40 screen40_geometry rfl (fun _ _ => 0) (panelOff screen40)
    [codeMessage, codeMessage] 3000 (by decide)).1

end PiousOS.Kernel
