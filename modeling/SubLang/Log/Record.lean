import SubLang.Log.Level

/-!
Log records.
-/

namespace SubLang

structure LogRecord where
  source : String
  level : Int
  message : String
  deriving DecidableEq, Repr

end SubLang
