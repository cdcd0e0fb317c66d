import PiousOS.L4Kernel.ConsoleText
import PiousOS.L4Kernel.System

/-!
# `kernel_main` and `Abort`

What the kernel says: the lines of `kernel_main` (`src/kernel/kernel.c`) and
`InitializeDrivers` (`src/kernel/drivers.c`), and the message of an `Abort`, in
the build with `DEBUG_PIOUS` that the Makefile makes.

* `Prints f text`: `f` returns and has printed `text`; it composes (`Prints.bind`);
* `bootMessages_prints`, `Abort_prints`: the texts, number by number;
* `kernel_main_shows`: what is on the screen in the endless loop, and after
  any errors from there on.
-/
namespace PiousOS.Kernel
open Terminal

/-! ## The code -/

/-- The loader block with the system tables. -/
structure BootParams extends LOADER_PARAMS where
  ConfigTables : UINT64
  Number_of_ConfigTables : UINTN

section
variable (undefined : FloatValue → UINT64) (behind : UINT8 → Nat → UINT8) (fuel : Nat)

/-- `PrintString(str, mainTextDisplaySettings.color, mainTextDisplaySettings.backgroundColor, args...)` -/
def print (color : TextDisplaySettings → UINT32) (str : Nat → UINT8) (args : List UINT64) (d : Display) :
    Option Display :=
  PrintString ⟨str, fun i => args.getD i 0, color d.settings, d.settings.backgroundColor, undefined⟩
    behind fuel d

/-- mirrors src/kernel/graphics.c:47-52 -/
def PrintDebugMessage (str : Nat → UINT8) (d : Display) : Option Display := do
  let d ← print undefined behind fuel TextDisplaySettings.highlightColor (formatOf "[DEBUG]".toList) [] d
  let d ← print undefined behind fuel TextDisplaySettings.fontColor (formatOf " ".toList) [] d
  print undefined behind fuel TextDisplaySettings.fontColor str [] d

/-- mirrors src/kernel/graphics.c:59-63 -/
def printErrorMessage (message : Nat → UINT8) (d : Display) : Option Display :=
  if message 0 ≠ 0#8 then do
    let d ← print undefined behind fuel TextDisplaySettings.fontColor message [] d
    print undefined behind fuel TextDisplaySettings.fontColor (formatOf " - ".toList) [] d
  else some d

/-- mirrors src/kernel/graphics.c:54-69 -/
def PrintErrorCode (code : UINT64) (message : Nat → UINT8) (d : Display) : Option Display := do
  let d ← print undefined behind fuel TextDisplaySettings.highlightColor (formatOf "[ERROR]".toList) [] d
  let d ← print undefined behind fuel TextDisplaySettings.fontColor (formatOf " ".toList) [] d
  let d ← printErrorMessage undefined behind fuel message d
  print undefined behind fuel TextDisplaySettings.fontColor (formatOf "Error Code: 0x%lX".toList) [code] d

/-- Up to the `hlt`.
mirrors arch/kernel/x86_64/system.c:207-216 -/
def Abort (errorCode : UINT64) (d : Display) : Option Display :=
  PrintErrorCode undefined behind fuel errorCode (formatOf "".toList) d

/-- mirrors src/kernel/drivers.c:5-9 -/
def InitializeDrivers (ConfigTable : UINT64) (NumberOfConfigTables : UINTN) (d : Display) :
    Option Display := do
  let d ← print undefined behind fuel TextDisplaySettings.fontColor (formatOf "Address of first table: 0x%lX\n".toList)
    [ConfigTable] d
  print undefined behind fuel TextDisplaySettings.fontColor (formatOf "Number of tables: %lu\n".toList) [NumberOfConfigTables] d

/-- What `kernel_main` prints behind `InitializeDisplay`, the message at the
end of `InitializeSystem` included.
mirrors src/kernel/kernel.c:50-55, arch/kernel/x86_64/system.c:202-204 -/
def bootMessages (kernel_stack : UINT64) (LP : BootParams) (d : Display) : Option Display := do
  let d ← PrintDebugMessage undefined behind fuel (formatOf "System Initialized\n".toList) d
  let d ← print undefined behind fuel TextDisplaySettings.fontColor (formatOf "Hello!\n".toList) [] d
  let d ← print undefined behind fuel TextDisplaySettings.fontColor (formatOf "Stack Address: 0x%lX\n".toList) [kernel_stack] d
  InitializeDrivers undefined behind fuel LP.ConfigTables LP.Number_of_ConfigTables d

/-- Up to the endless loop, with the `InitializeSystem` of the architecture.
mirrors src/kernel/kernel.c:28-62 -/
def kernel_main (InitializeSystem : LOADER_PARAMS → KernelState → KernelState) (kernel_stack : UINT64)
    (LP : BootParams) (k : KernelState) : Option KernelState :=
  let k := InitializeSystem LP.toLOADER_PARAMS k
  (bootMessages undefined behind fuel kernel_stack LP k.display).map fun d => { k with display := d }

end

/-! ## The text -/

def white : UINT32 := 0x00FFFFFF

def green : UINT32 := 0x0033FF33

def codes (s : String) : List UINT8 := s.toList.map ascii

def hexOf (value : UINT64) : List UINT8 := numeralText upperDigits 16 value.toNat

def decimalOf (value : UINT64) : List UINT8 := numeralText lowerDigits 10 value.toNat

/-- Characters in a colour, on the background of `InitializeDisplay`. -/
def inColour (fg : UINT32) (line : List UINT8) : List Glyph := line.map fun chr => ⟨chr, fg, 0x00000000⟩

/-- What `kernel_main` says. -/
def bootLines (kernel_stack : UINT64) (LP : BootParams) : List (List Glyph) :=
  [inColour green (codes "[DEBUG]") ++ inColour white (codes " System Initialized"),
    inColour white (codes "Hello!"),
    inColour white (codes "Stack Address: 0x" ++ hexOf kernel_stack),
    inColour white (codes "Address of first table: 0x" ++ hexOf LP.ConfigTables),
    inColour white (codes "Number of tables: " ++ decimalOf LP.Number_of_ConfigTables)]

/-- What `Abort` says, without a line end. -/
def abortLine (code : UINT64) : List Glyph :=
  inColour green (codes "[ERROR]") ++ inColour white (codes " Error Code: 0x" ++ hexOf code)

/-- A message in one colour, with or without a line end. -/
def messageText (fg : UINT32) (line : List UINT8) (ended : Bool) : List (Option Glyph) :=
  (inColour fg line).map some ++ if ended then [none] else []

/-! ## Printing -/

/-- The colours `InitializeDisplay` sets. -/
structure DefaultColours (s : TextDisplaySettings) : Prop where
  font : s.fontColor = white
  highlight : s.highlightColor = green
  background : s.backgroundColor = 0x00000000

/-- The operation for a character or a line end. -/
def opOf : Option Glyph → ConsoleOp
  | some g => .char g.chr g.foregroundColor g.backgroundColor
  | none => .newline

theorem text_opOf (text : List (Option Glyph)) : (text.map opOf).map ConsoleOp.text = text := by
  rw [List.map_map]
  refine List.map_id'' (fun o => ?_) text
  cases o <;> rfl

theorem map_messageText (fg : UINT32) (line : List UINT8) (ended : Bool) :
    (messageText fg line ended).map opOf =
      (line.map fun chr => .char chr fg 0x00000000) ++ if ended then [.newline] else [] := by
  rw [messageText, inColour, List.map_append, List.map_map, List.map_map]
  cases ended <;> rfl

/-- From the default colours on, `f` returns and has printed `text`. -/
structure Prints (behind : UINT8 → Nat → UINT8) (f : Display → Option Display) (text : List (Option Glyph)) :
    Prop where
  inTable : ∀ op ∈ text.map opOf, op.InTable
  run : ∀ d, DefaultColours d.settings → f d = some (runConsole behind (text.map opOf) d)

section
variable {undefined : FloatValue → UINT64} {behind : UINT8 → Nat → UINT8} {fuel : Nat}

/-- Printing moves the cursor and leaves the other settings. -/
theorem step_settings (op : ConsoleOp) (d : Display) :
    ∃ index, (op.step behind d).settings = { d.settings with index := index } := by
  cases op with
  | char chr fg bg =>
    rw [ConsoleOp.step, PrintCharacter]
    dsimp only
    split
    · exact ⟨_, rfl⟩
    · exact ⟨_, rfl⟩
  | newline =>
    rw [ConsoleOp.step, printNewline]
    dsimp only
    split
    · exact ⟨_, rfl⟩
    · exact ⟨_, rfl⟩

theorem DefaultColours.run {d : Display} (h : DefaultColours d.settings) (ops : List ConsoleOp) :
    DefaultColours (runConsole behind ops d).settings := by
  induction ops generalizing d with
  | nil => exact h
  | cons op ops ih =>
    obtain ⟨index, hset⟩ : ∃ index, (op.step behind d).settings = { d.settings with index := index } :=
      step_settings op d
    refine ih (d := op.step behind d) ?_
    rw [hset]
    exact ⟨h.font, h.highlight, h.background⟩

theorem Prints.bind {f g : Display → Option Display} {text text' : List (Option Glyph)}
    (hf : Prints behind f text) (hg : Prints behind g text') :
    Prints behind (fun d => (f d).bind g) (text ++ text') where
  inTable := by
    intro op hop
    rw [List.map_append, List.mem_append] at hop
    cases hop with
    | inl h => exact hf.inTable op h
    | inr h => exact hg.inTable op h
  run d hd := by
    rw [hf.run d hd, Option.bind_some, hg.run _ (hd.run _), runConsole, runConsole, runConsole,
      List.map_append, List.foldl_append]

/-- What is printed by nothing. -/
theorem Prints.skip : Prints behind some [] := ⟨fun _ hop => absurd hop List.not_mem_nil, fun _ _ => rfl⟩

/-! ## One message -/

theorem mem_messageText {fg : UINT32} {line : List UINT8} {ended : Bool} {op : ConsoleOp}
    (h : op ∈ (messageText fg line ended).map opOf) :
    op = .newline ∨ ∃ chr ∈ line, op = .char chr fg 0x00000000 := by
  rw [map_messageText, List.mem_append] at h
  cases h with
  | inl hmem =>
    obtain ⟨chr, hchr, rfl⟩ := List.mem_map.mp hmem
    exact .inr ⟨chr, hchr, rfl⟩
  | inr hmem =>
    cases ended with
    | true => exact .inl (List.mem_singleton.mp hmem)
    | false => cases hmem

/-- What a message with no more than an `unsigned long` in it prints. -/
theorem prints_print {color : TextDisplaySettings → UINT32} {fg : UINT32} {chars : List Char}
    {args : List UINT64} {line : List UINT8} {ended : Bool} (hfuel : 2200 < fuel)
    (hcolor : ∀ s, DefaultColours s → color s = fg) (hshort : chars.length ≤ 100)
    (hread : (formatCode.decodeAll (chars.map ascii)).isSome)
    (htotal : ∀ d ∈ directivesOf chars, d.meaning.total = true)
    (htext : render ⟨formatOf chars, fun i => args.getD i 0, fg, 0x00000000, undefined⟩ (directivesOf chars) 0 =
      (line.map fun chr => .char chr fg 0x00000000) ++ if ended then [.newline] else [])
    (htable : ∀ chr ∈ line, chr.toNat < 128) :
    Prints behind (print undefined behind fuel color (formatOf chars) args) (messageText fg line ended) where
  inTable op hop := by
    rcases mem_messageText hop with rfl | ⟨chr, hchr, rfl⟩
    · trivial
    · exact htable chr hchr
  run d hd := by
    have hlen := length_directivesOf hread
    rw [print, hcolor _ hd, hd.background, map_messageText, ← htext]
    exact PrintString_directives (directives_formatOf hread) (exactArgs_of_total htotal 0) (by omega) behind d

/-- What the numbers are printed with is in the table. -/
theorem numeralText_inTable {digits : List Char} (hall : digits.all fun c => (ascii c).toNat < 128) (b n : Nat) :
    ∀ chr ∈ numeralText digits b n, chr.toNat < 128 := by
  intro chr hchr
  obtain ⟨d, -, rfl⟩ := List.mem_map.mp hchr
  rw [List.getD_eq_getElem?_getD]
  cases hget : digits[d]? with
  | none => decide
  | some c => exact of_decide_eq_true (List.all_eq_true.mp hall c (List.mem_of_getElem? hget))

/-- A message in `fontColor` that ends in a number. -/
theorem prints_value {chars : List Char} {pre : String} {digits : List Char} {b : Nat} {value : UINT64}
    {ended : Bool} (hfuel : 2200 < fuel) (hshort : chars.length ≤ 100)
    (hread : (formatCode.decodeAll (chars.map ascii)).isSome)
    (htotal : ∀ d ∈ directivesOf chars, d.meaning.total = true)
    (htext : render ⟨formatOf chars, fun i => [value].getD i 0, white, 0x00000000, undefined⟩
      (directivesOf chars) 0 =
        ((codes pre).map fun chr => .char chr white 0x00000000) ++
          (((numeralText digits b value.toNat).map fun chr => .char chr white 0x00000000) ++
            if ended then [.newline] else []))
    (hpre : ∀ chr ∈ codes pre, chr.toNat < 128) (hdigits : digits.all fun c => (ascii c).toNat < 128) :
    Prints behind (print undefined behind fuel TextDisplaySettings.fontColor (formatOf chars) [value])
      (messageText white (codes pre ++ numeralText digits b value.toNat) ended) := by
  refine prints_print hfuel (fun _ h => h.font) hshort hread htotal ?_ fun chr hchr => ?_
  · rw [htext, List.map_append, List.append_assoc]
  · rw [List.mem_append] at hchr
    cases hchr with
    | inl h => exact hpre chr h
    | inr h => exact numeralText_inTable hdigits b value.toNat chr h

/-! ## What the code prints -/

section
variable (hfuel : 2200 < fuel)
include hfuel

theorem PrintDebugMessage_prints {str : Nat → UINT8} {text : List (Option Glyph)}
    (hstr : Prints behind (print undefined behind fuel TextDisplaySettings.fontColor str []) text) :
    Prints behind (PrintDebugMessage undefined behind fuel str)
      (messageText green (codes "[DEBUG]") false ++ (messageText white (codes " ") false ++ text)) :=
  (prints_print hfuel (fun _ h => h.highlight) (by decide) (by decide) (by decide) rfl (by decide)).bind
    ((prints_print hfuel (fun _ h => h.font) (by decide) (by decide) (by decide) rfl (by decide)).bind hstr)

theorem Abort_prints (code : UINT64) :
    Prints behind (Abort undefined behind fuel code) ((abortLine code).map some) := by
  have htag : Prints behind
      (print undefined behind fuel TextDisplaySettings.highlightColor (formatOf "[ERROR]".toList) [])
      (messageText green (codes "[ERROR]") false) :=
    prints_print hfuel (fun _ h => h.highlight) (by decide) (by decide) (by decide) rfl (by decide)
  have hblank : Prints behind
      (print undefined behind fuel TextDisplaySettings.fontColor (formatOf " ".toList) [])
      (messageText white (codes " ") false) :=
    prints_print hfuel (fun _ h => h.font) (by decide) (by decide) (by decide) rfl (by decide)
  -- the message is empty
  have hmessage : Prints behind (printErrorMessage undefined behind fuel (formatOf "".toList)) [] := Prints.skip
  have hcode : Prints behind
      (print undefined behind fuel TextDisplaySettings.fontColor (formatOf "Error Code: 0x%lX".toList) [code])
      (messageText white (codes "Error Code: 0x" ++ hexOf code) false) :=
    prints_value hfuel (by decide) (by decide) (by decide) rfl (by decide) (by decide)
  have htext : (abortLine code).map some = messageText green (codes "[ERROR]") false ++
      (messageText white (codes " ") false ++ ([] ++
        messageText white (codes "Error Code: 0x" ++ hexOf code) false)) := by
    have hcodes : codes " Error Code: 0x" = codes " " ++ codes "Error Code: 0x" := rfl
    simp [abortLine, messageText, inColour, hcodes]
  rw [htext]
  exact htag.bind (hblank.bind (hmessage.bind hcode))

theorem InitializeDrivers_prints (ConfigTable : UINT64) (NumberOfConfigTables : UINTN) :
    Prints behind (InitializeDrivers undefined behind fuel ConfigTable NumberOfConfigTables)
      (messageText white (codes "Address of first table: 0x" ++ hexOf ConfigTable) true ++
        messageText white (codes "Number of tables: " ++ decimalOf NumberOfConfigTables) true) :=
  (prints_value hfuel (by decide) (by decide) (by decide) rfl (by decide) (by decide)).bind
    (prints_value hfuel (by decide) (by decide) (by decide) rfl (by decide) (by decide))

theorem bootMessages_prints (kernel_stack : UINT64) (LP : BootParams) :
    Prints behind (bootMessages undefined behind fuel kernel_stack LP) (linesText (bootLines kernel_stack LP)) := by
  have hsystem : Prints behind
      (print undefined behind fuel TextDisplaySettings.fontColor (formatOf "System Initialized\n".toList) [])
      (messageText white (codes "System Initialized") true) :=
    prints_print hfuel (fun _ h => h.font) (by decide) (by decide) (by decide) rfl (by decide)
  have hhello : Prints behind
      (print undefined behind fuel TextDisplaySettings.fontColor (formatOf "Hello!\n".toList) [])
      (messageText white (codes "Hello!") true) :=
    prints_print hfuel (fun _ h => h.font) (by decide) (by decide) (by decide) rfl (by decide)
  have hstack : Prints behind
      (print undefined behind fuel TextDisplaySettings.fontColor (formatOf "Stack Address: 0x%lX\n".toList)
        [kernel_stack])
      (messageText white (codes "Stack Address: 0x" ++ hexOf kernel_stack) true) :=
    prints_value hfuel (by decide) (by decide) (by decide) rfl (by decide) (by decide)
  have hdrivers : Prints behind
      (InitializeDrivers undefined behind fuel LP.ConfigTables LP.Number_of_ConfigTables) _ :=
    InitializeDrivers_prints hfuel LP.ConfigTables LP.Number_of_ConfigTables
  have htext : linesText (bootLines kernel_stack LP) =
      (messageText green (codes "[DEBUG]") false ++
        (messageText white (codes " ") false ++ messageText white (codes "System Initialized") true)) ++
      (messageText white (codes "Hello!") true ++
        (messageText white (codes "Stack Address: 0x" ++ hexOf kernel_stack) true ++
          (messageText white (codes "Address of first table: 0x" ++ hexOf LP.ConfigTables) true ++
            messageText white (codes "Number of tables: " ++ decimalOf LP.Number_of_ConfigTables) true))) := by
    have hcodes : codes " System Initialized" = codes " " ++ codes "System Initialized" := rfl
    simp [linesText, bootLines, messageText, inColour, hcodes]
  rw [htext]
  exact (PrintDebugMessage_prints hfuel hsystem).bind (hhello.bind (hstack.bind hdrivers))

end

end

/-! ## On the screen -/

section
variable {gpu : EFI_GRAPHICS_OUTPUT_PROTOCOL_MODE} {n : Nat} {background : UINT32} {d : Display}
  {behind : UINT8 → Nat → UINT8}

/-- The text goes to the terminal the display shows. -/
theorem Prints.shows {f : Display → Option Display} {text : List (Option Glyph)} (h : Prints behind f text)
    (hg : Geometry gpu) (hp : gpu.PixelsPerScanLine = gpu.HorizontalResolution)
    (hcolours : DefaultColours d.settings) {t : Terminal (textRows gpu n) (textCols gpu n) Glyph}
    (hshow : Shows gpu n background d t) :
    ∃ d', f d = some d' ∧ DefaultColours d'.settings ∧ Shows gpu n background d' (t.write text) := by
  refine ⟨_, h.run d hcolours, hcolours.run _, ?_⟩
  have hrun : Shows gpu n background (runConsole behind (text.map opOf) d) (runTerminal (text.map opOf) t) :=
    run_shows hg hp h.inTable hshow
  rwa [runTerminal_eq_write, text_opOf] at hrun

variable {undefined : FloatValue → UINT64} {fuel : Nat}

/-- Errors one after the other, as when an NMI ends the `hlt`. -/
def aborts (undefined : FloatValue → UINT64) (behind : UINT8 → Nat → UINT8) (fuel : Nat)
    (errorCodes : List UINT64) (d : Display) : Option Display :=
  errorCodes.foldlM (fun d errorCode => Abort undefined behind fuel errorCode d) d

theorem aborts_prints (hfuel : 2200 < fuel) (errorCodes : List UINT64) :
    Prints behind (aborts undefined behind fuel errorCodes)
      (errorCodes.flatMap fun errorCode => (abortLine errorCode).map some) := by
  induction errorCodes with
  | nil => exact Prints.skip
  | cons errorCode errorCodes ih => exact (Abort_prints hfuel errorCode).bind ih

/-! ## The lines fit -/

theorem length_inColour (fg : UINT32) (line : List UINT8) : (inColour fg line).length = line.length :=
  List.length_map _

theorem length_hexOf (value : UINT64) : (hexOf value).length ≤ 16 := by
  rw [hexOf, numeralText, digitCodes, List.length_map]
  exact length_numeral_le (by decide) (by decide) value.isLt

theorem length_decimalOf (value : UINT64) : (decimalOf value).length ≤ 20 := by
  rw [decimalOf, numeralText, digitCodes, List.length_map]
  exact length_numeral_le (by decide) (by decide) (Nat.lt_trans value.isLt (by decide))

theorem length_bootLines (kernel_stack : UINT64) (LP : BootParams) :
    ∀ line ∈ bootLines kernel_stack LP, line.length < 43 := by
  have hstack := length_hexOf kernel_stack
  have htables := length_hexOf LP.ConfigTables
  have hnumber := length_decimalOf LP.Number_of_ConfigTables
  have hwords : (codes "Stack Address: 0x").length = 17 ∧ (codes "Address of first table: 0x").length = 26 ∧
      (codes "Number of tables: ").length = 18 := by decide
  intro line hline
  simp only [bootLines, List.mem_cons, List.not_mem_nil, or_false] at hline
  rcases hline with rfl | rfl | rfl | rfl | rfl
  · decide
  · decide
  · rw [length_inColour, List.length_append, hwords.1]
    omega
  · rw [length_inColour, List.length_append, hwords.2.1]
    omega
  · rw [length_inColour, List.length_append, hwords.2.2]
    omega

theorem length_abortLine (errorCode : UINT64) : (abortLine errorCode).length < 43 := by
  have hcode := length_hexOf errorCode
  have hwords : (codes "[ERROR]").length = 7 ∧ (codes " Error Code: 0x").length = 15 := by decide
  rw [abortLine, List.length_append, length_inColour, length_inColour, List.length_append, hwords.1, hwords.2]
  omega

/-- In 43 columns each line is a row. -/
theorem boot_rows {C : Nat} (hC : 43 ≤ C) (kernel_stack : UINT64) (LP : BootParams) (errorCode : UINT64) :
    layout C (linesText (bootLines kernel_stack LP)) = bootLines kernel_stack LP ++ [[]] ∧
    layout C (linesText (bootLines kernel_stack LP) ++ (abortLine errorCode).map some) =
      bootLines kernel_stack LP ++ [abortLine errorCode] := by
  have hlines : ∀ line ∈ bootLines kernel_stack LP, line.length < C := fun line hline =>
    Nat.lt_of_lt_of_le (length_bootLines kernel_stack LP line hline) hC
  have habort := Nat.lt_of_lt_of_le (length_abortLine errorCode) hC
  constructor
  · have hboot := layout_linesText hlines []
    rwa [List.append_nil] at hboot
  · rw [layout_linesText hlines, layout, rowsFrom_line [] _ (by rwa [List.length_nil, Nat.zero_add])]
    rfl

end

/-- **What the kernel shows.** On either architecture and any screen without
back porch, `kernel_main` gets to its endless loop with the boot messages on
the screen, and errors from there on add their texts; with 43 columns each boot
line and the first error is a row of its own. An error has no line end, so a
second one goes on in the row of the first. -/
theorem kernel_main_shows (undefined : FloatValue → UINT64) (behind : UINT8 → Nat → UINT8) (fuel : Nat)
    (hfuel : 2200 < fuel) (p : Placement) (pusher : Nat → UINT64)
    (InitializeSystem : LOADER_PARAMS → KernelState → KernelState)
    (harch : InitializeSystem = X86_64.InitializeSystem p pusher ∨ InitializeSystem = AArch64.InitializeSystem)
    (kernel_stack : UINT64) (LP : BootParams) (k : KernelState) (hg : Geometry (LP.GPU_Configs.GPUArray 0))
    (hp : (LP.GPU_Configs.GPUArray 0).PixelsPerScanLine = (LP.GPU_Configs.GPUArray 0).HorizontalResolution) :
    let gpu := LP.GPU_Configs.GPUArray 0
    let boot := linesText (bootLines kernel_stack LP)
    (∃ k', kernel_main undefined behind fuel InitializeSystem kernel_stack LP k = some k' ∧
      ScreenShows gpu k'.display boot ∧
      ∀ errorCodes, ∃ d, aborts undefined behind fuel errorCodes k'.display = some d ∧
        ScreenShows gpu d (boot ++ errorCodes.flatMap fun errorCode => (abortLine errorCode).map some)) ∧
    (43 ≤ textCols gpu (pickScale gpu).toNat → ∀ errorCode,
      layout (textCols gpu (pickScale gpu).toNat) boot = bootLines kernel_stack LP ++ [[]] ∧
      layout (textCols gpu (pickScale gpu).toNat) (boot ++ (abortLine errorCode).map some) =
        bootLines kernel_stack LP ++ [abortLine errorCode]) := by
  intro gpu boot
  refine ⟨?_, fun hcols errorCode => boot_rows hcols kernel_stack LP errorCode⟩
  have hdisplay : (InitializeSystem LP.toLOADER_PARAMS k).display = InitializeDisplay gpu k.display := by
    rcases harch with rfl | rfl <;> rfl
  have hcolours : DefaultColours (InitializeDisplay gpu k.display).settings := ⟨rfl, rfl, rfl⟩
  obtain ⟨d, hboot, hdefault, hshow⟩ :=
    (bootMessages_prints hfuel kernel_stack LP).shows hg hp hcolours (InitializeDisplay_shows hg k.display)
  refine ⟨{ InitializeSystem LP.toLOADER_PARAMS k with display := d }, ?_, screenShows_of_shows hg hshow,
    fun errorCodes => ?_⟩
  · rw [kernel_main, hdisplay, hboot]
    rfl
  · obtain ⟨d', habort, -, hshow'⟩ := (aborts_prints hfuel errorCodes).shows hg hp hdefault hshow
    refine ⟨d', habort, screenShows_of_shows hg ?_⟩
    rw [Terminal.write, List.foldl_append]
    exact hshow'

/-- A loader block for the screen `screen40`. -/
def bootParams40 : BootParams where
  toLOADER_PARAMS := { mapAt1M 3 with GPU_Configs := ⟨fun _ => screen40, 1⟩ }
  ConfigTables := 0xBFF0000
  Number_of_ConfigTables := 9

theorem kernel_main_shows_screen40 :
    ∃ k', kernel_main (fun _ => 0) (fun _ _ => 0) 3000 AArch64.InitializeSystem 0x300000 bootParams40
        beforeSetup = some k' ∧
      ScreenShows screen40 k'.display (linesText (bootLines 0x300000 bootParams40)) := by
  obtain ⟨k', hrun, hshow, -⟩ := (kernel_main_shows (fun _ => 0) (fun _ _ => 0) 3000 (by decide) higherHalf
    (fun _ => 0) AArch64.InitializeSystem (.inr rfl) 0x300000 bootParams40 beforeSetup screen40_geometry rfl).1
  exact ⟨k', hrun, hshow⟩

end PiousOS.Kernel
