import EventBus.Text.Combining

/-!
# Quoted text

Strings and characters are shown between quotes. The quote itself and the backslash are escaped,
and so is a character that would not show by itself: one that is not printable, or that would
combine with the character before it. Every other character stands for itself.
-/

namespace EventBus.Text

def codePoint (c : Char) : List Char :=
  ['\\', 'u', '\x7b'] ++ Nat.toDigits 16 c.toNat ++ ['\x7d']

def escape (quote c : Char) : List Char :=
  if c = quote ∨ c = '\\' then ['\\', c]
  else if c = '\n' then ['\\', 'n']
  else if c = '\t' then ['\\', 't']
  else if c = '\r' then ['\\', 'r']
  else if c = '\x00' then ['\\', '0']
  else if isCombining c || !isPrintable c then codePoint c
  else [c]

def quoted (s : String) : String :=
  String.ofList ('"' :: (s.toList.flatMap (escape '"') ++ ['"']))

def quotedChar (c : Char) : String :=
  String.ofList ('\'' :: (escape '\'' c ++ ['\'']))

theorem escape_of_plain {quote c : Char} (hq : c ≠ quote) (hb : c ≠ '\\')
    (hc : isCombining c = false) (hp : isPrintable c = true) : escape quote c = [c] := by
  have hn : c ≠ '\n' := by rintro rfl; exact absurd hp (by decide)
  have ht : c ≠ '\t' := by rintro rfl; exact absurd hp (by decide)
  have hr : c ≠ '\r' := by rintro rfl; exact absurd hp (by decide)
  have h0 : c ≠ '\x00' := by rintro rfl; exact absurd hp (by decide)
  simp [escape, hq, hb, hn, ht, hr, h0, hc, hp]

end EventBus.Text
