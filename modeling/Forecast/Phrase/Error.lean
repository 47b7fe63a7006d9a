import Forecast.Phrase.Token

namespace Forecast.Phrase

inductive Error where
  | noDate
  | nothingAfterSign
  | nothingAfterDirection
  | dayNameExpected
  | unitExpected
  | agoExpected
  | halfOfDayExpected
  | colonExpected
  | fractionExpected
  | offsetSignExpected
  | separatorExpected (found : Char)
  | numberExpected (found : Token)
  | markExpected (found : Token)
  | wordExpected (found : Token)
  | otherMark (wanted found : Char)
  | unexpectedMark (found : Char)
  | unexpectedToken (found : Token)
  | notExpected (found : Token)
  | badDate
  | badTime
  /-- A month counted out does not reach the day. -/
  | shortMonth
  deriving DecidableEq

namespace Error

def message : Error → String
  | noDate => "empty date string"
  | nothingAfterSign => "nothing after '-'"
  | nothingAfterDirection => "nothing after last/next"
  | dayNameExpected => "expected week day or month name"
  | unitExpected => "expected month or time unit"
  | agoExpected => "only expected 'ago'"
  | halfOfDayExpected => "expected am or pm"
  | colonExpected => "expecting ':'"
  | fractionExpected => "expected fractional second after '.'"
  | offsetSignExpected => "expected +/- before timezone"
  | separatorExpected c => s!"expected : or ., not {c}"
  | numberExpected t => s!"line 1: integer expected, got {t.text}"
  | markExpected t => s!"line 1: char expected, got {t.text}"
  | wordExpected t => s!"line 1: iden expected, got {t.text}"
  | otherMark wanted found => s!"line 1: expected one of '{wanted}', got {found}"
  | unexpectedMark c => s!"unexpected char {Text.quotedChar c}"
  | unexpectedToken t => s!"unexpected token {t.text}"
  | notExpected t => s!"not expected token {t.text}"
  | badDate => "bad date"
  | badTime => "bad time"
  | shortMonth => "bad date"

end Error

end Forecast.Phrase
