import Forecast.Source.Position

namespace Forecast

inductive Keyword where
  | varWord | dateWord | atWord | optionsWord | ifWord | elseWord
  deriving DecidableEq

inductive Symbol where
  | assign | plusAssign | minusAssign | starAssign | slashAssign
  | equal | greater | less | greaterEqual | lessEqual
  | andAnd | orOr
  | plus | minus | star | slash
  | openParen | closeParen | openBrace | closeBrace
  | comma | colon | semicolon
  deriving DecidableEq

namespace Keyword

def all : List Keyword := [.varWord, .dateWord, .atWord, .optionsWord, .ifWord, .elseWord]

def chars : Keyword → List Char
  | .varWord => ['v', 'a', 'r']
  | .dateWord => ['d', 'a', 't', 'e']
  | .atWord => ['a', 't']
  | .optionsWord => ['o', 'p', 't', 'i', 'o', 'n', 's']
  | .ifWord => ['i', 'f']
  | .elseWord => ['e', 'l', 's', 'e']

def ofChars? (word : List Char) : Option Keyword := all.find? (·.chars = word)

end Keyword

namespace Symbol

def all : List Symbol :=
  [.assign, .plusAssign, .minusAssign, .starAssign, .slashAssign,
    .equal, .greater, .less, .greaterEqual, .lessEqual, .andAnd, .orOr,
    .plus, .minus, .star, .slash, .openParen, .closeParen, .openBrace, .closeBrace,
    .comma, .colon, .semicolon]

def chars : Symbol → List Char
  | .assign => ['=']
  | .plusAssign => ['+', '=']
  | .minusAssign => ['-', '=']
  | .starAssign => ['*', '=']
  | .slashAssign => ['/', '=']
  | .equal => ['=', '=']
  | .greater => ['>']
  | .less => ['<']
  | .greaterEqual => ['>', '=']
  | .lessEqual => ['<', '=']
  | .andAnd => ['&', '&']
  | .orOr => ['|', '|']
  | .plus => ['+']
  | .minus => ['-']
  | .star => ['*']
  | .slash => ['/']
  | .openParen => ['(']
  | .closeParen => [')']
  | .openBrace => ['{']
  | .closeBrace => ['}']
  | .comma => [',']
  | .colon => [':']
  | .semicolon => [';']

def ofChars? (mark : List Char) : Option Symbol := all.find? (·.chars = mark)

end Symbol

namespace Token

inductive Kind where
  | keyword (k : Keyword)
  | name
  | number
  | string
  | symbol (s : Symbol)
  deriving DecidableEq

def Kind.display : Kind → String
  | .keyword k => s!"'{String.ofList k.chars}'"
  | .name => "Name"
  | .number => "Number"
  | .string => "String"
  | .symbol s => s!"'{String.ofList s.chars}'"

end Token

structure Token where
  kind : Token.Kind
  text : String
  span : Span
  deriving DecidableEq

end Forecast
