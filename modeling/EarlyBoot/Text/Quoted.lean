import EarlyBoot.Text.Hex

set_option autoImplicit false

namespace EarlyBoot.Quoted

def character (c : Char) : List Char :=
  if c = '\x00' then ['\\', '0']
  else if c = '\t' then ['\\', 't']
  else if c = '\r' then ['\\', 'r']
  else if c = '\n' then ['\\', 'n']
  else if c = '"' then ['\\', '"']
  else if c = '\\' then ['\\', '\\']
  else if c.toNat < 32 ∨ c.toNat = 127 then
    ['\\', 'u', '\x7b'] ++ Hex.digits c.toNat ++ ['\x7d']
  else [c]

def render (text : String) : String :=
  String.ofList (['"'] ++ text.toList.flatMap character ++ ['"'])

end EarlyBoot.Quoted
