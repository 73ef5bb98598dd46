import StateBuffer.Text.Bytes

/-!
Colours and weights on a terminal: a style is a pair of escape codes around a text.
-/

namespace StateBuffer

/-- The parameters that turn a style on and off again. -/
structure Style where
  on : Bytes
  off : Bytes

namespace Style

def boldRed : Style := ⟨"31;1", "0;22"⟩

def boldGreen : Style := ⟨"32;1", "0;22"⟩

def boldYellow : Style := ⟨"33;1", "0;22"⟩

def boldBlue : Style := ⟨"34;1", "0;22"⟩

def cyan : Style := ⟨"36", "0"⟩

def faint : Style := ⟨"2", "22"⟩

/-- The text in a style, if styles are wanted. -/
def apply (style : Style) (wanted : Bool) (s : Bytes) : Bytes :=
  if wanted then "\x1b[" ++ style.on ++ "m" ++ s ++ "\x1b[" ++ style.off ++ "m" else s

end Style

end StateBuffer
