/-!
# Parts of a text

A text holds a word if the word is a run of its characters.
-/

namespace WaveNotebook.Text

def holds (word : List Char) : List Char → Bool
  | [] => word.isEmpty
  | c :: cs => word.isPrefixOf (c :: cs) || holds word cs

end WaveNotebook.Text
