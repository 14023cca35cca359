/-
**Commands on the wire.**

A client sends a command as an array of bulk strings (`encodeRespArrayCommand`): its bytes are those
of the value the server parses it to (`encode_commandValue`).

* `awaits_command` — a fresh parser awaits the encoding of every command: the arguments may hold
  any bytes, line ends and type characters included.
* `Awaits.resume` — a parser that was given a first part of what it awaits, in a call that
  returned, is left awaiting the second part.
-/

import SunKV.Protocol.Encode

namespace SunKV.Protocol

open SunKV.Lib

/-- An argument of a command. -/
def encodeBulk (arg : Bytes) : Bytes :=
  [ascii '$'] ++ decimal arg.length ++ crlf ++ arg ++ crlf

/-- **`encodeRespArrayCommand`.** -/
def encodeRespArrayCommand (args : List Bytes) : Bytes :=
  [ascii '*'] ++ decimal args.length ++ crlf ++ args.flatMap encodeBulk

/-- The value a command is parsed to. -/
def commandValue (args : List Bytes) : RespValue := .array (args.map .bulkString)

theorem encodeAll_bulkStrings (args : List Bytes) :
    RespValue.encodeAll (args.map .bulkString) = args.flatMap encodeBulk := by
  induction args with
  | nil => rfl
  | cons arg args ih =>
    rw [List.map_cons, RespValue.encodeAll, ih, List.flatMap_cons]
    rfl

/-- **A command is sent as the value it is parsed to.** -/
theorem encode_commandValue (args : List Bytes) :
    (commandValue args).encode = encodeRespArrayCommand args := by
  rw [commandValue, RespValue.encode, encodeAll_bulkStrings, List.length_map]
  rfl

/-- **A fresh parser awaits every command.** -/
theorem awaits_command {args : List Bytes} (some : args ≠ []) (few : args.length < 2 ^ 59)
    (fits : ∀ arg ∈ args, arg.length < 2 ^ 62) :
    Awaits {} (encodeRespArrayCommand args) (commandValue args) := by
  rw [← encode_commandValue]
  refine awaits_array (by simpa using some) (by rwa [List.length_map]) ?_ ?_
  · intro value member
    obtain ⟨arg, inside, rfl⟩ := List.mem_map.mp member
    exact (fits arg inside).trans (by decide)
  · intro value member
    obtain ⟨arg, -, rfl⟩ := List.mem_map.mp member
    rfl

/-- **A parser fed a part of what it awaits is left awaiting the rest.** -/
theorem Awaits.resume {parser : RespParser} {front back : Bytes} {value : RespValue}
    (awaits : Awaits parser (front ++ back) value) (more : back ≠ [])
    {ending : Ending RespParser UInt8 Halt}
    (returns : Returns RespParser.step parser front ending) :
    ∃ last, ending = .dry last ∧ Awaits last back value := by
  have onward (later : Bytes) : ∃ last, Resumes RespParser.step (back ++ later)
      (.halted (.success value) last later) ending := by
    obtain ⟨last, whole⟩ := awaits.2 later
    rw [List.append_assoc] at whole
    exact ⟨last, (step_resumable.returns_append returns
      (List.append_ne_nil_of_left_ne_nil more later) _).mp whole⟩
  cases ending with
  | dry last => exact ⟨last, rfl, more, onward⟩
  | halted outcome last unread =>
    obtain ⟨_, same⟩ := onward []
    have nothing : [] = unread ++ (back ++ []) := (Ending.halted.inj same).2.2
    simp only [List.append_nil, List.nil_eq, List.append_eq_nil_iff] at nothing
    exact absurd nothing.2 more

end SunKV.Protocol
