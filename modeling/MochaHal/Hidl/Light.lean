import MochaHal.Lib.Writes
import Mathlib.Algebra.Group.Nat.Defs

/-! The lights service in `hidl/light/Light.cpp`.  Notifications, attention and battery share
one LED, which shows the first of them that is lit.  Each request is made under a lock, so
requests of any clients are a sequence; `led_shows` says what the LED shows after it, and
`brightness_range` what a backlight gets. -/

namespace MochaHal.Lights
open MochaHal.Writes

/-! ## The source -/

inductive Flash
  | NONE
  | TIMED
  | HARDWARE
  deriving DecidableEq, Repr

structure LightState where
  color : BitVec 32
  flashMode : Flash
  flashOnMs : Int
  flashOffMs : Int
  deriving DecidableEq, Repr

inductive LightType
  | BACKLIGHT
  | KEYBOARD
  | BUTTONS
  | BATTERY
  | NOTIFICATIONS
  | ATTENTION
  | BLUETOOTH
  | WIFI
  deriving DecidableEq, Repr

inductive Status
  | SUCCESS
  | LIGHT_NOT_SUPPORTED
  deriving DecidableEq, Repr

def DEFAULT_MAX_BRIGHTNESS : BitVec 32 := 255

def redOf (color : BitVec 32) : BitVec 32 := (color >>> 16) &&& 0xff
def greenOf (color : BitVec 32) : BitVec 32 := (color >>> 8) &&& 0xff
def blueOf (color : BitVec 32) : BitVec 32 := color &&& 0xff

def rgbToBrightness (state : LightState) : BitVec 32 :=
  let color := state.color &&& 0x00ffffff
  (77 * redOf color + 150 * greenOf color + 29 * blueOf color) >>> 8

def isLit (state : LightState) : Bool := state.color &&& 0x00ffffff ≠ 0

/-- `colors`: what the hardware can blink in. -/
inductive Primary
  | red
  | yellow
  | green
  | cyan
  | blue
  | magenta
  | white
  | grey
  | black
  deriving DecidableEq, Repr

def Primary.rgb : Primary → BitVec 32 × BitVec 32 × BitVec 32
  | .red => (255, 0, 0)
  | .yellow => (255, 255, 0)
  | .green => (0, 255, 0)
  | .cyan => (0, 255, 255)
  | .blue => (0, 0, 255)
  | .magenta => (255, 0, 255)
  | .white => (255, 255, 255)
  | .grey => (127, 127, 127)
  | .black => (0, 0, 0)

/-- The files of the LED and its engine. -/
inductive File
  | red
  | green
  | blue
  | select_engine
  | run_engine
  deriving DecidableEq, Repr

/-- What the files show: the values that were written last, and the engines that were
selected since the engine was stopped. -/
structure Led where
  red : BitVec 32
  green : BitVec 32
  blue : BitVec 32
  run_engine : BitVec 32
  selected : List (BitVec 32)
  deriving DecidableEq, Repr

def Led.write (led : Led) : File × BitVec 32 → Led
  | (.red, v) => { led with red := v }
  | (.green, v) => { led with green := v }
  | (.blue, v) => { led with blue := v }
  | (.select_engine, v) => { led with selected := led.selected ++ [v] }
  | (.run_engine, v) => { led with run_engine := v, selected := if v = 0 then [] else led.selected }

structure Light where
  mAttentionState : LightState
  mBatteryState : LightState
  mNotificationState : LightState
  lcdBacklight : BitVec 32
  buttonBacklight : BitVec 32
  led : Led

/-- The limits of the backlights, and `nearest_color`, which measures distances in floating
point. -/
structure Board where
  lcdMax : BitVec 32
  buttonMax : BitVec 32
  nearest_color : BitVec 32 → BitVec 32 → BitVec 32 → Primary

/-- What `setLcdBacklight` and `setButtonsBacklight` write. -/
def brightnessOf (max : BitVec 32) (state : LightState) : BitVec 32 :=
  if max ≠ DEFAULT_MAX_BRIGHTNESS then rgbToBrightness state * max / DEFAULT_MAX_BRIGHTNESS
  else rgbToBrightness state

/-- The four writes that turn the LED off. -/
def ledOff : List (File × BitVec 32) := [(.run_engine, 0), (.red, 0), (.green, 0), (.blue, 0)]

/-- Whether `setSpeakerLightLocked` blinks. -/
def blinks (state : LightState) : Bool :=
  state.flashMode = .TIMED && state.flashOnMs > 0 && state.flashOffMs > 0

/-- The writes of `setSpeakerLightLocked`.  The times are only tested. -/
def setSpeakerLightLocked (board : Board) (state : LightState) : List (File × BitVec 32) :=
  let red := redOf state.color
  let green := greenOf state.color
  let blue := blueOf state.color
  ledOff ++
    if blinks state then
      let (r, g, b) := (board.nearest_color red green blue).rgb
      (if r ≠ 0 then [(.select_engine, 1)] else []) ++ (if g ≠ 0 then [(.select_engine, 2)] else []) ++
        (if b ≠ 0 then [(.select_engine, 3)] else []) ++ [(.run_engine, 1)]
    else [(.red, red), (.green, green), (.blue, blue)]

def Light.setSpeakerBatteryLightLocked (board : Board) (l : Light) : List (File × BitVec 32) :=
  if isLit l.mNotificationState then setSpeakerLightLocked board l.mNotificationState
  else if isLit l.mAttentionState then setSpeakerLightLocked board l.mAttentionState
  else if isLit l.mBatteryState then setSpeakerLightLocked board l.mBatteryState
  else ledOff

def Light.showLed (board : Board) (l : Light) : Light :=
  { l with led := (l.setSpeakerBatteryLightLocked board).foldl Led.write l.led }

def Light.setAttentionLight (board : Board) (l : Light) (state : LightState) : Light :=
  { l with mAttentionState := state }.showLed board

def Light.setBatteryLight (board : Board) (l : Light) (state : LightState) : Light :=
  { l with mBatteryState := state }.showLed board

def Light.setNotificationLight (board : Board) (l : Light) (state : LightState) : Light :=
  { l with mNotificationState := state }.showLed board

def Light.setLcdBacklight (board : Board) (l : Light) (state : LightState) : Light :=
  { l with lcdBacklight := brightnessOf board.lcdMax state }

def Light.setButtonsBacklight (board : Board) (l : Light) (state : LightState) : Light :=
  { l with buttonBacklight := brightnessOf board.buttonMax state }

/-- `setLight`, with the table of the types it knows. -/
def Light.setLight (board : Board) (l : Light) (type : LightType) (state : LightState) : Status × Light :=
  match type with
  | .ATTENTION => (.SUCCESS, l.setAttentionLight board state)
  | .BACKLIGHT => (.SUCCESS, l.setLcdBacklight board state)
  | .BATTERY => (.SUCCESS, l.setBatteryLight board state)
  | .BUTTONS => (.SUCCESS, l.setButtonsBacklight board state)
  | .NOTIFICATIONS => (.SUCCESS, l.setNotificationLight board state)
  | .KEYBOARD | .BLUETOOTH | .WIFI => (.LIGHT_NOT_SUPPORTED, l)

/-! ## What is shown -/

/-- What the LED shows for a request that is lit, or for none. -/
def shown (board : Board) : Option LightState → Led
  | none => ⟨0, 0, 0, 0, []⟩
  | some state =>
    if blinks state then
      let p := board.nearest_color (redOf state.color) (greenOf state.color) (blueOf state.color)
      ⟨0, 0, 0, 1, (if p.rgb.1 ≠ 0 then [1] else []) ++ (if p.rgb.2.1 ≠ 0 then [2] else []) ++
        (if p.rgb.2.2 ≠ 0 then [3] else [])⟩
    else ⟨redOf state.color, greenOf state.color, blueOf state.color, 0, []⟩

/-- Requests in the order in which they are looked at: the first that is lit. -/
def firstLit (states : List LightState) : Option LightState := states.find? fun s => isLit s

abbrev Request := LightType × LightState

/-- The last request of a type. -/
def lastOf (type : LightType) (requests : List Request) : Option LightState :=
  lastWrite (given type) requests

def isLed (r : Request) : Bool := r.1 = .NOTIFICATIONS || r.1 = .ATTENTION || r.1 = .BATTERY

def Light.run (board : Board) (l : Light) (requests : List Request) : Light :=
  requests.foldl (fun l r => (l.setLight board r.1 r.2).2) l

variable {board : Board} {l : Light} {requests : List Request}

theorem setSpeakerLight_shown (state : LightState) (led : Led) :
    (setSpeakerLightLocked board state).foldl Led.write led = shown board (some state) := by
  unfold setSpeakerLightLocked shown
  rw [List.foldl_append]
  by_cases hb : blinks state
  · simp only [hb, ↓reduceIte]
    cases board.nearest_color (redOf state.color) (greenOf state.color) (blueOf state.color) <;> rfl
  · simp only [hb]
    rfl

theorem showLed_led (l : Light) :
    (l.showLed board).led =
      shown board (firstLit [l.mNotificationState, l.mAttentionState, l.mBatteryState]) := by
  unfold Light.showLed Light.setSpeakerBatteryLightLocked firstLit
  dsimp only
  by_cases hn : isLit l.mNotificationState
  · rw [if_pos hn, List.find?_cons_of_pos hn]
    exact setSpeakerLight_shown _ _
  rw [if_neg hn, List.find?_cons_of_neg hn]
  by_cases ha : isLit l.mAttentionState
  · rw [if_pos ha, List.find?_cons_of_pos ha]
    exact setSpeakerLight_shown _ _
  rw [if_neg ha, List.find?_cons_of_neg ha]
  by_cases hb : isLit l.mBatteryState
  · rw [if_pos hb, List.find?_cons_of_pos hb]
    exact setSpeakerLight_shown _ _
  rw [if_neg hb, List.find?_cons_of_neg hb]
  rfl

/-- What the service remembers of the requests, and what the LED and the backlights show. -/
structure Remembers (board : Board) (l₀ l : Light) (requests : List Request) : Prop where
  notification : l.mNotificationState = (lastOf .NOTIFICATIONS requests).getD l₀.mNotificationState
  attention : l.mAttentionState = (lastOf .ATTENTION requests).getD l₀.mAttentionState
  battery : l.mBatteryState = (lastOf .BATTERY requests).getD l₀.mBatteryState
  lcd : l.lcdBacklight = ((lastOf .BACKLIGHT requests).map (brightnessOf board.lcdMax)).getD l₀.lcdBacklight
  buttons : l.buttonBacklight = ((lastOf .BUTTONS requests).map (brightnessOf board.buttonMax)).getD l₀.buttonBacklight
  led : l.led = if requests.any isLed then
    shown board (firstLit [l.mNotificationState, l.mAttentionState, l.mBatteryState]) else l₀.led

theorem lastOf_concat (type : LightType) (requests : List Request) (r : Request) :
    lastOf type (requests ++ [r]) = if r.1 = type then some r.2 else lastOf type requests := by
  unfold lastOf
  rw [lastWrite_concat, given]
  split <;> rfl

/-- One request. -/
theorem Remembers.setLight {l₀ : Light} (h : Remembers board l₀ l requests) (r : Request) :
    Remembers board l₀ (l.setLight board r.1 r.2).2 (requests ++ [r]) := by
  obtain ⟨hn, ha, hb, hlcd, hbuttons, hled⟩ := h
  obtain ⟨type, state⟩ := r
  cases type with
  | NOTIFICATIONS | ATTENTION | BATTERY =>
    refine ⟨?_, ?_, ?_, ?_, ?_, (showLed_led _).trans (if_pos (by simp [isLed])).symm⟩ <;>
      rw [lastOf_concat] <;> first | assumption | rfl
  | BACKLIGHT | BUTTONS | KEYBOARD | BLUETOOTH | WIFI =>
    refine ⟨?_, ?_, ?_, ?_, ?_, ?_⟩
    case refine_6 =>
      rw [List.any_append, show [(_, state)].any isLed = false from rfl, Bool.or_false]
      exact hled
    all_goals rw [lastOf_concat]; first | assumption | rfl

theorem remembers_run (l₀ : Light) (requests : List Request) : Remembers board l₀ (l₀.run board requests) requests := by
  induction requests using List.reverseRecOn with
  | nil => exact ⟨rfl, rfl, rfl, rfl, rfl, rfl⟩
  | append_singleton requests r ih =>
    have hrun : l₀.run board (requests ++ [r]) = ((l₀.run board requests).setLight board r.1 r.2).2 := by
      rw [Light.run, List.foldl_append]
      rfl
    rw [hrun]
    exact ih.setLight r

/-- **The LED.**  After any requests, one of which was for the LED, it shows the last
notification if that is lit, else the last request for attention, else the one of the
battery, and nothing of what it showed before; the backlights have their own last request. -/
theorem led_shows (board : Board) (l₀ : Light) (requests : List Request) :
    (l₀.run board requests).led =
      (if requests.any isLed then
        shown board (firstLit [(lastOf .NOTIFICATIONS requests).getD l₀.mNotificationState,
          (lastOf .ATTENTION requests).getD l₀.mAttentionState, (lastOf .BATTERY requests).getD l₀.mBatteryState])
      else l₀.led) ∧
    (l₀.run board requests).lcdBacklight =
      ((lastOf .BACKLIGHT requests).map (brightnessOf board.lcdMax)).getD l₀.lcdBacklight ∧
    (l₀.run board requests).buttonBacklight =
      ((lastOf .BUTTONS requests).map (brightnessOf board.buttonMax)).getD l₀.buttonBacklight := by
  obtain ⟨hn, ha, hb, hlcd, hbuttons, hled⟩ : Remembers board l₀ (l₀.run board requests) requests :=
    remembers_run l₀ requests
  rw [hn, ha, hb] at hled
  exact ⟨hled, hlcd, hbuttons⟩

/-! ## Brightness -/

theorem toNat_redOf (color : BitVec 32) : (redOf color).toNat = color.toNat / 2 ^ 16 % 256 := by
  rw [redOf, BitVec.toNat_and, BitVec.toNat_ushiftRight, Nat.shiftRight_eq_div_pow]
  exact Nat.and_two_pow_sub_one_eq_mod _ 8

theorem toNat_greenOf (color : BitVec 32) : (greenOf color).toNat = color.toNat / 2 ^ 8 % 256 := by
  rw [greenOf, BitVec.toNat_and, BitVec.toNat_ushiftRight, Nat.shiftRight_eq_div_pow]
  exact Nat.and_two_pow_sub_one_eq_mod _ 8

theorem toNat_blueOf (color : BitVec 32) : (blueOf color).toNat = color.toNat % 256 := by
  rw [blueOf, BitVec.toNat_and]
  exact Nat.and_two_pow_sub_one_eq_mod _ 8

theorem toNat_masked (color : BitVec 32) : (color &&& 0x00ffffff).toNat = color.toNat % 2 ^ 24 := by
  rw [BitVec.toNat_and]
  exact Nat.and_two_pow_sub_one_eq_mod _ 24

/-- The weighted mean of the channels. -/
def level (state : LightState) : Nat :=
  (77 * (redOf state.color).toNat + 150 * (greenOf state.color).toNat + 29 * (blueOf state.color).toNat) / 256

theorem channels (color : BitVec 32) : color.toNat % 2 ^ 24 =
    (redOf color).toNat * 2 ^ 16 + (greenOf color).toNat * 2 ^ 8 + (blueOf color).toNat ∧
    (redOf color).toNat < 256 ∧ (greenOf color).toNat < 256 ∧ (blueOf color).toNat < 256 := by
  rw [toNat_redOf, toNat_greenOf, toNat_blueOf]
  omega

/-- The bits above the channels do not count. -/
theorem channels_masked (color : BitVec 32) : (redOf (color &&& 0x00ffffff)).toNat = (redOf color).toNat ∧
    (greenOf (color &&& 0x00ffffff)).toNat = (greenOf color).toNat ∧
    (blueOf (color &&& 0x00ffffff)).toNat = (blueOf color).toNat := by
  simp only [toNat_redOf, toNat_greenOf, toNat_blueOf, toNat_masked]
  omega

theorem toNat_rgbToBrightness (state : LightState) : (rgbToBrightness state).toNat = level state := by
  obtain ⟨hr, hg, hb⟩ := channels_masked state.color
  obtain ⟨-, hred, hgreen, hblue⟩ := channels state.color
  have h77 : (77 : BitVec 32).toNat = 77 := rfl
  have h150 : (150 : BitVec 32).toNat = 150 := rfl
  have h29 : (29 : BitVec 32).toNat = 29 := rfl
  unfold rgbToBrightness level
  simp only [BitVec.toNat_ushiftRight, BitVec.toNat_add, BitVec.toNat_mul, hr, hg, hb, h77, h150, h29,
    Nat.shiftRight_eq_div_pow]
  omega

theorem level_range (state : LightState) : level state ≤ 255 ∧
    (level state = 255 ↔ state.color.toNat % 2 ^ 24 = 2 ^ 24 - 1) := by
  obtain ⟨hcolor, hred, hgreen, hblue⟩ := channels state.color
  rw [hcolor]
  unfold level
  omega

/-- **Backlights.**  What is written is at most the largest value, is this for white only (if it is
positive), and rises with each channel. -/
theorem brightness_range {max : BitVec 32} (hmax : max.toNat * 255 < 2 ^ 32) (state : LightState) :
    (brightnessOf max state).toNat ≤ max.toNat ∧
    (0 < max.toNat → (brightnessOf max state = max ↔ state.color.toNat % 2 ^ 24 = 2 ^ 24 - 1)) ∧
    ∀ other : LightState, (redOf state.color).toNat ≤ (redOf other.color).toNat →
      (greenOf state.color).toNat ≤ (greenOf other.color).toNat →
      (blueOf state.color).toNat ≤ (blueOf other.color).toNat → brightnessOf max state ≤ brightnessOf max other := by
  have hscaled : ∀ s, (brightnessOf max s).toNat = level s * max.toNat / 255 := by
    intro s
    have hlevel := toNat_rgbToBrightness s
    have hle := (level_range s).1
    unfold brightnessOf
    split
    case isTrue =>
      have hsmall : level s * max.toNat < 2 ^ 32 := by
        have := Nat.mul_le_mul_right max.toNat hle
        omega
      rw [BitVec.toNat_udiv, BitVec.toNat_mul, hlevel, Nat.mod_eq_of_lt hsmall]
      rfl
    case isFalse h =>
      rw [hlevel, not_not.mp h]
      exact (Nat.mul_div_cancel _ (by decide)).symm
  obtain ⟨hle, hwhite⟩ := level_range state
  refine ⟨?_, fun hpos => ?_, fun other hr hg hb => ?_⟩
  · rw [hscaled]
    have := Nat.mul_le_mul_right max.toNat hle
    omega
  · rw [← hwhite, ← BitVec.toNat_inj, hscaled]
    constructor
    · intro heq
      by_contra hne
      have hlt : level state ≤ 254 := by omega
      have := Nat.mul_le_mul_right max.toNat hlt
      omega
    · intro heq
      rw [heq, Nat.mul_div_cancel_left _ (by decide)]
  · rw [BitVec.le_def, hscaled, hscaled]
    refine Nat.div_le_div_right (Nat.mul_le_mul_right _ ?_)
    unfold level
    omega

theorem brightness_range_100 : brightnessOf 100 ⟨0xffffffff, .NONE, 0, 0⟩ = 100 :=
  ((@brightness_range 100 (by decide) ⟨0xffffffff, .NONE, 0, 0⟩).2.1 (by decide)).mpr (by decide)

end MochaHal.Lights
