import SmetricRouter.Library.Utf8Text

/-! Results of tokenization, as far as the router reads them. -/

namespace SmetricRouter.Tokenizer

/-- One id and one pair of byte offsets for each token. -/
structure HfEncoding where
  ids : List UInt32
  offsets : List (Nat × Nat)

inductive Encoding where
  | hf (inner : HfEncoding)
  | sp (ids : List UInt32)
  | tiktoken (ids : List UInt32)

end SmetricRouter.Tokenizer
