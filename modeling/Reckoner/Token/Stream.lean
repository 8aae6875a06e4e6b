import Reckoner.Token.Basic

/-! # Token streams

The tokens that are still unread, and the end token behind them. A list of tokens that
does not end with an end token gets one on the line of its last token.
-/

namespace Reckoner

structure TokenStream where
  unread : List Token
  final : Token
  deriving Repr, DecidableEq

namespace TokenStream

def ofTokens (tokens : List Token) : TokenStream :=
  match tokens.getLast? with
  | none => ⟨[], .endOfInput 1⟩
  | some last =>
      if last.kind = .endOfInput then ⟨tokens.dropLast, last⟩
      else ⟨tokens, .endOfInput last.line⟩

def toTokens (stream : TokenStream) : List Token := stream.unread ++ [stream.final]

/-- The token at the reading position, given what is still unread there. -/
def current (stream : TokenStream) (unread : List Token) : Token := unread.headD stream.final

/-- How many tokens have been read to get from one stream to a later state of it. -/
def distance (start later : TokenStream) : Nat := start.unread.length - later.unread.length

end TokenStream

end Reckoner
