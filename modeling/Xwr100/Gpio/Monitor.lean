import Mathlib.Data.List.Induction
import Xwr100.Lib.Run

/-! # The button monitor

`hwctl_gpiomonitor` of `gpio.c` runs every 200 ms on the levels of the two buttons, which are
low while a button is pressed.  It drives the watchdog clock, and in normal mode it counts
`btick` while the reset button is pressed and tells process 1 to reboot or to restore the
defaults.
-/

namespace Xwr100.Gpio

open Lib

/-! ## Pins and signals -/

def powerLed : Nat := 1
def wscOledGpio : Nat := 5
def watchdogClk : Nat := 7

def sigusr1 : Nat := 16
def sigusr2 : Nat := 17

def hwctlRestdelay : BitVec 32 := 9 * 1000 / 200

def resReboot : BitVec 32 := 1
def resDefault : BitVec 32 := 2

structure Sample where
  reset : Bool
  wlsec : Bool
  deriving DecidableEq

/-- What a call does outside: it sets an output pin or signals process 1. -/
inductive Action
  | out (gpio : Nat) (on : Bool)
  | killProc (sig : Nat)
  deriving DecidableEq

structure Monitor where
  startMonitor : Bool
  buttonTest : Bool
  watchdogStatus : Bool
  stopClock : Bool
  btick : BitVec 32
  flag : BitVec 32
  res : BitVec 32

/-- Normal mode before the first sample. -/
def Monitor.start (watchdogStatus stopClock : Bool) (flag res : BitVec 32) : Monitor :=
  ⟨true, false, watchdogStatus, stopClock, 0, flag, res⟩

namespace Monitor

variable (m : Monitor)

/-! ## One call -/

def watchdogClock : Monitor × List Action :=
  if m.stopClock then (m, [])
  else ({ m with watchdogStatus := !m.watchdogStatus }, [.out watchdogClk m.watchdogStatus])

def testButtons (s : Sample) : Monitor × List Action :=
  let reset : Monitor × List Action :=
    if s.reset then (m, [.out powerLed true])
    else ({ m with flag := m.flag + 1 }, [.out powerLed (m.flag % 2 ≠ 0)])
  let wlsec : Monitor × List Action :=
    if s.wlsec then (reset.1, [.out wscOledGpio true])
    else ({ reset.1 with flag := reset.1.flag + 1 }, [.out wscOledGpio (reset.1.flag % 2 = 0)])
  (wlsec.1, reset.2 ++ wlsec.2)

def burst (sig : Nat) : List Action := List.replicate 3 (.killProc sig)

/-- The reset button in normal mode; `btick` is not cleared. -/
def resetButton (s : Sample) : Monitor × List Action :=
  if s.reset then
    if m.btick ≠ 0 then
      if m.btick ≤ hwctlRestdelay then ({ m with res := resReboot }, burst sigusr1)
      else ({ m with res := resDefault }, burst sigusr2)
    else (m, [])
  else
    let counted : Monitor := { m with btick := m.btick + 1 }
    if hwctlRestdelay < counted.btick then ({ counted with res := resDefault }, burst sigusr2)
    else (counted, [])

/-- The security button signals its number 30 as long as it is pressed. -/
def securityButton (s : Sample) : List Action := if s.wlsec then [] else [.killProc 30]

/-- `hwctl_gpiomonitor`, up to the restart of its timer. -/
def hwctlGpiomonitor (s : Sample) : Monitor × List Action :=
  if m.startMonitor then
    let clock := m.watchdogClock
    if m.buttonTest then
      let test := clock.1.testButtons s
      (test.1, clock.2 ++ test.2)
    else
      let reset := clock.1.resetButton s
      (reset.1, clock.2 ++ reset.2 ++ securityButton s)
  else (m, [])

def step (s : Sample) : Monitor := (m.hwctlGpiomonitor s).1

def sends (s : Sample) (sig : Nat) : Nat := (m.hwctlGpiomonitor s).2.count (.killProc sig)

end Monitor

/-! ## Presses -/

/-- The samples of the present press, or of the one that has just been released. -/
def pressLength (past : List Sample) : Nat := (past.reverse.takeWhile fun s => !s.reset).length

def pressedTotal (past : List Sample) : Nat := past.countP fun s => !s.reset

@[simp] theorem pressLength_nil : pressLength [] = 0 := rfl

@[simp] theorem pressedTotal_nil : pressedTotal [] = 0 := rfl

theorem pressLength_concat (past : List Sample) (s : Sample) :
    pressLength (past ++ [s]) = if s.reset then 0 else pressLength past + 1 := by
  cases h : s.reset <;> simp [pressLength, h]

theorem pressedTotal_concat (past : List Sample) (s : Sample) :
    pressedTotal (past ++ [s]) = if s.reset then pressedTotal past else pressedTotal past + 1 := by
  cases h : s.reset <;> simp [pressedTotal, h]

theorem pressLength_le_total (past : List Sample) : pressLength past ≤ pressedTotal past := by
  induction past using List.reverseRecOn with
  | nil => simp
  | append_singleton past s ih =>
      rw [pressLength_concat, pressedTotal_concat]
      split <;> omega

end Xwr100.Gpio
