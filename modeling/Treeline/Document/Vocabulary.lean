namespace Treeline

-- A closed list of words, in the order in which messages list them and indices count them.
class Vocabulary (κ : Type) where
  words : List κ
  spell : κ → String

namespace Vocabulary

def spellings (κ : Type) [Vocabulary κ] : List String := (words : List κ).map spell

def ofText? (κ : Type) [Vocabulary κ] (text : String) : Option κ :=
  words.find? fun word => spell word == text

def ofIndex? (κ : Type) [Vocabulary κ] (index : Nat) : Option κ := words[index]?

end Vocabulary

end Treeline
