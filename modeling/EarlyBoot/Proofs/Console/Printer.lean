import EarlyBoot.Console.Printer
import EarlyBoot.Proofs.Console.Uart

set_option autoImplicit false

namespace EarlyBoot.Console.Printer

open Uart (Sends)

variable {printer : Printer}

theorem write_returns (line : LineStatus) (free : printer.frozen = false) (text : List Char) :
    let written := printer.write line text
    written.returned = true ∧ written.printer.frozen = false := by
  induction text generalizing printer with
  | nil => exact ⟨rfl, free⟩
  | cons c rest ih =>
    simp only [write, free, Bool.false_eq_true, if_false]
    exact ih rfl

theorem write_sends (line : LineStatus) (free : printer.frozen = false) (text : List Char) :
    let written := printer.write line text
    Sends line printer.polled (text.flatMap encodeCharacter) written.accesses
      written.printer.polled := by
  induction text generalizing printer with
  | nil => exact .nothing printer.polled
  | cons c rest ih =>
    have sends := Uart.sends_send line printer.polled (encodeCharacter c)
    let next : Printer :=
      { printer with polled := (Uart.send line printer.polled (encodeCharacter c)).2 }
    have unfrozen : next.frozen = false := free
    rw [write, if_neg (by simp [free]), List.flatMap_cons]
    exact sends.append (ih unfrozen)

theorem write_append (line : LineStatus) (text more : List Char) :
    printer.write line (text ++ more) =
      (printer.write line text).andThen fun next => next.write line more := by
  induction text generalizing printer with
  | nil => rfl
  | cons c rest ih =>
    by_cases frozen : printer.frozen = true
    · simp [write, frozen, Printed.andThen]
    · simp only [List.cons_append, write, frozen, Bool.false_eq_true, if_false, ih]
      simp only [Printed.andThen]
      split <;> simp

theorem writeAll_eq_write (line : LineStatus) (pieces : List String) :
    printer.writeAll line pieces = printer.write line (String.join pieces).toList := by
  induction pieces generalizing printer with
  | nil => rfl
  | cons piece rest ih =>
    rw [writeAll, String.join_cons, String.toList_append, write_append]
    simp only [ih]

theorem print_of_unlocked (line : LineStatus) (unlocked : printer.locked = false)
    (pieces : List String) :
    printer.print line pieces =
      let written := { printer with locked := true }.write line (String.join pieces).toList
      if written.returned then
        { written with printer := { written.printer with locked := false } }
      else written := by
  rw [print, if_neg (by simp [unlocked]), writeAll_eq_write]

theorem print_of_free (line : LineStatus) (unlocked : printer.locked = false)
    (free : printer.frozen = false) (pieces : List String) :
    printer.print line pieces =
      let written := { printer with locked := true }.write line (String.join pieces).toList
      { written with printer := { written.printer with locked := false } } := by
  have locked : { printer with locked := true }.frozen = false := free
  obtain ⟨returned, _⟩ := write_returns line locked (String.join pieces).toList
  rw [print_of_unlocked line unlocked]
  exact if_pos returned

theorem print_returns (line : LineStatus) (unlocked : printer.locked = false)
    (free : printer.frozen = false) (pieces : List String) :
    let printed := printer.print line pieces
    printed.returned = true ∧ printed.printer.locked = false ∧ printed.printer.frozen = false := by
  have locked : { printer with locked := true }.frozen = false := free
  obtain ⟨returned, kept⟩ := write_returns line locked (String.join pieces).toList
  rw [print_of_free line unlocked free]
  exact ⟨returned, rfl, kept⟩

theorem print_sends (line : LineStatus) (unlocked : printer.locked = false)
    (free : printer.frozen = false) (pieces : List String) :
    let printed := printer.print line pieces
    Sends line printer.polled ((String.join pieces).toList.flatMap encodeCharacter)
      printed.accesses printed.printer.polled := by
  have locked : { printer with locked := true }.frozen = false := free
  rw [print_of_free line unlocked free]
  exact write_sends line locked (String.join pieces).toList

theorem print_unlocks (line : LineStatus) (printer : Printer) (pieces : List String)
    (returned : (printer.print line pieces).returned = true) :
    (printer.print line pieces).printer.locked = false := by
  cases held : printer.locked with
  | true => simp [print, held] at returned
  | false =>
    rw [print_of_unlocked line held] at returned ⊢
    dsimp only at returned ⊢
    split at returned
    next written => rw [if_pos written]
    next waiting => exact absurd returned waiting

theorem print_of_frozen (line : LineStatus) (frozen : printer.frozen = true)
    (pieces : List String) :
    let printed := printer.print line pieces
    printed.accesses = [] ∧ printed.printer.frozen = true := by
  cases held : printer.locked with
  | true => simp [print, held, frozen]
  | false =>
    rw [print_of_unlocked line held]
    cases (String.join pieces).toList with
    | nil => exact ⟨rfl, frozen⟩
    | cons c rest => simp [write, frozen]

theorem printAll_returns (line : LineStatus) (unlocked : printer.locked = false)
    (free : printer.frozen = false) (texts : List String) :
    (printer.printAll line texts).returned = true := by
  induction texts generalizing printer with
  | nil => rfl
  | cons text rest ih =>
    obtain ⟨returned, unlocked, free⟩ := print_returns line unlocked free [text]
    simp only [printAll, Printed.andThen, returned, if_true]
    exact ih unlocked free

end EarlyBoot.Console.Printer
