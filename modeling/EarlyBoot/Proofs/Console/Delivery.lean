import EarlyBoot.Proofs.Console.Printer
import EarlyBoot.Proofs.Text.Utf8

set_option autoImplicit false

namespace EarlyBoot.Console

open Uart (Sends)

def withReturns (text : String) : String :=
  String.ofList (text.toList.flatMap fun c => if c = '\n' then ['\r', '\n'] else [c])

theorem flatMap_encodeCharacter (text : String) :
    text.toList.flatMap encodeCharacter = (withReturns text).toUTF8.data.toList := by
  rw [toUTF8_eq_flatMap, withReturns, String.toList_ofList, List.flatMap_assoc]
  congr 1
  funext c
  rw [encodeCharacter]
  split
  · decide
  · simp

inductive Request where
  | print (pieces : List String)
  | freeze
  deriving DecidableEq, Repr

def spoken : List Request → List (List String)
  | .print pieces :: rest => pieces :: spoken rest
  | _ => []

def Printer.serve (line : LineStatus) (printer : Printer) : List Request → List Printed
  | [] => []
  | .print pieces :: rest =>
    let printed := printer.print line pieces
    printed :: printed.printer.serve line rest
  | .freeze :: rest => printer.freeze.serve line rest

structure Printed.Delivers (printed : Printed) (pieces : List String) : Prop where
  returned : printed.returned = true
  unlocked : printed.printer.locked = false
  sent : Uart.sent false printed.accesses =
    (withReturns (String.join pieces)).toUTF8.data.toList

structure Conveys (line : LineStatus) (polled : Nat) (texts : List (List String))
    (served : List Printed) : Prop where
  sends : ∃ after, Sends line polled ((String.join texts.flatten).toList.flatMap encodeCharacter)
    (served.flatMap Printed.accesses) after
  delivers : List.Forall₂ Printed.Delivers (served.take texts.length) texts
  silent : ∀ printed ∈ served.drop texts.length, printed.accesses = []

variable {line : LineStatus} {printer : Printer} {polled : Nat} {pieces : List String}
  {texts : List (List String)} {served : List Printed}

theorem conveys_of_silent (silent : ∀ printed ∈ served, printed.accesses = []) :
    Conveys line polled [] served where
  sends := by
    have nothing : served.flatMap Printed.accesses = [] := List.flatMap_eq_nil_iff.mpr silent
    exact ⟨polled, nothing ▸ .nothing polled⟩
  delivers := .nil
  silent := silent

theorem Conveys.cons {printed : Printed}
    (sends : Sends line polled ((String.join pieces).toList.flatMap encodeCharacter)
      printed.accesses printed.printer.polled)
    (delivers : printed.Delivers pieces)
    (rest : Conveys line printed.printer.polled texts served) :
    Conveys line polled (pieces :: texts) (printed :: served) where
  sends := by
    obtain ⟨after, later⟩ := rest.sends
    refine ⟨after, ?_⟩
    rw [List.flatten_cons, String.join_append, String.toList_append, List.flatMap_append,
      List.flatMap_cons]
    exact sends.append later
  delivers := .cons delivers rest.delivers
  silent := rest.silent

namespace Printer

theorem print_delivers (line : LineStatus) (unlocked : printer.locked = false)
    (free : printer.frozen = false) (pieces : List String) :
    (printer.print line pieces).Delivers pieces := by
  obtain ⟨returned, released, _⟩ := print_returns line unlocked free pieces
  have sends := print_sends line unlocked free pieces
  exact ⟨returned, released, sends.sent.trans (flatMap_encodeCharacter _)⟩

theorem serve_silent (line : LineStatus) (frozen : printer.frozen = true)
    (requests : List Request) :
    ∀ printed ∈ printer.serve line requests, printed.accesses = [] := by
  induction requests generalizing printer with
  | nil => simp [serve]
  | cons request rest ih =>
    cases request with
    | print pieces =>
      obtain ⟨quiet, still⟩ := print_of_frozen line frozen pieces
      exact List.forall_mem_cons.mpr ⟨quiet, ih still⟩
    | freeze => exact ih rfl

theorem serve_unlocks (line : LineStatus) (printer : Printer) (requests : List Request) :
    ∀ printed ∈ printer.serve line requests,
      printed.returned = true → printed.printer.locked = false := by
  induction requests generalizing printer with
  | nil => simp [serve]
  | cons request rest ih =>
    cases request with
    | print pieces =>
      exact List.forall_mem_cons.mpr ⟨print_unlocks line printer pieces, ih _⟩
    | freeze => exact ih printer.freeze

theorem serve_conveys (line : LineStatus) (unlocked : printer.locked = false)
    (free : printer.frozen = false) (requests : List Request) :
    Conveys line printer.polled (spoken requests) (printer.serve line requests) := by
  induction requests generalizing printer with
  | nil => exact conveys_of_silent (by simp [serve])
  | cons request rest ih =>
    cases request with
    | print pieces =>
      obtain ⟨_, released, unfrozen⟩ := print_returns line unlocked free pieces
      exact .cons (print_sends line unlocked free pieces) (print_delivers line unlocked free pieces)
        (ih released unfrozen)
    -- whatever is printed from here on is printed too late
    | freeze => exact conveys_of_silent (serve_silent line rfl rest)

end Printer

structure Faithful (line : LineStatus) (requests : List Request) (served : List Printed) :
    Prop where
  bytes : Uart.sent false (Uart.setup ++ served.flatMap Printed.accesses) =
    (withReturns (String.join (spoken requests).flatten)).toUTF8.data.toList
  paced : Uart.Paced (served.flatMap Printed.accesses)
  readings : ∃ count,
    Uart.readings (served.flatMap Printed.accesses) = (List.range count).map line.value
  delivers : List.Forall₂ Printed.Delivers (served.take (spoken requests).length) (spoken requests)
  unlocked : ∀ printed ∈ served, printed.returned = true → printed.printer.locked = false
  silent : ∀ printed ∈ served.drop (spoken requests).length, printed.accesses = []

theorem serve_faithful (line : LineStatus) (requests : List Request) :
    Faithful line requests (Printer.idle.serve line requests) := by
  have conveys : Conveys line Printer.idle.polled (spoken requests)
      (Printer.idle.serve line requests) :=
    Printer.serve_conveys line rfl rfl requests
  obtain ⟨after, sends⟩ := conveys.sends
  exact {
    bytes := sends.sent.trans (flatMap_encodeCharacter _)
    paced := sends.paced
    readings := ⟨after, by rw [sends.readings, List.range_eq_range']; rfl⟩
    delivers := conveys.delivers
    unlocked := Printer.serve_unlocks line .idle requests
    silent := conveys.silent }

-- a character of two bytes, a line feed in a piece of its own, and a print that comes too late
example :
    (Printer.idle.serve (.busyFor 1) [.print ["\u00e9", "\n"], .freeze, .print ["x"]]).map
        (fun printed => (Uart.sent false printed.accesses, printed.returned)) =
      [([0xc3, 0xa9, 13, 10], true), ([], false)] := by cbv

end EarlyBoot.Console
