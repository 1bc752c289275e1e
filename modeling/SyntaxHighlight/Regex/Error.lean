/-! Why the source of a regular expression is refused. -/
namespace SyntaxHighlight.Regex

inductive PatternError where
  | emptyClass
  | unclosedClass
  | endAtEscape
  | classValueAtRangeEnd
  | unmatchedRange
  | nothingToRepeat
  | cannotRepeat
  | unmatchedClose
  | unmatchedOpen
  | endInGroup
  | undefinedOption
  | invalidPosixClass
  | invalidLookBehind
  | numberTooBig
  | repeatTooBig
  | emptyRange
  | incompleteCharacter
  | invalidBackref
  | invalidCodePoint
  | codePointTooBig
  | codePointTooLong
  | emptyGroupName
  | invalidGroupName (name : String)
  | invalidCharInGroupName (name : String)
  | undefinedName (name : String)
  | undefinedGroup (name : String)
  | ambiguousCall (name : String)
  | endlessRecursion
  | unknownProperty (name : String)
  | tooFewDigits
  | endAtControl
  | endAtMeta
  | controlForm
  | metaForm
  | unclosedCallout
  | calloutName
  | unknownCallout
  | nestedTooDeep
deriving DecidableEq, Repr

def PatternError.message : PatternError → String
  | .emptyClass => "empty char-class"
  | .unclosedClass => "premature end of char-class"
  | .endAtEscape => "end pattern at escape"
  | .classValueAtRangeEnd => "char-class value at end of range"
  | .unmatchedRange => "unmatched range specifier in char-class"
  | .nothingToRepeat => "target of repeat operator is not specified"
  | .cannotRepeat => "target of repeat operator is invalid"
  | .unmatchedClose => "unmatched close parenthesis"
  | .unmatchedOpen => "end pattern with unmatched parenthesis"
  | .endInGroup => "end pattern in group"
  | .undefinedOption => "undefined group option"
  | .invalidPosixClass => "invalid POSIX bracket type"
  | .invalidLookBehind => "invalid pattern in look-behind"
  | .numberTooBig => "too big number"
  | .repeatTooBig => "too big number for repeat range"
  | .emptyRange => "empty range in char class"
  | .incompleteCharacter => "too short multibyte string"
  | .invalidBackref => "invalid backref number/name"
  | .invalidCodePoint => "invalid code point value"
  | .codePointTooBig => "too big wide-char value"
  | .codePointTooLong => "too long wide-char value"
  | .emptyGroupName => "group name is empty"
  | .invalidGroupName name => "invalid group name <" ++ name ++ ">"
  | .invalidCharInGroupName name => "invalid char in group name <" ++ name ++ ">"
  | .undefinedName name => "undefined name <" ++ name ++ "> reference"
  | .undefinedGroup name => "undefined group <" ++ name ++ "> reference"
  | .ambiguousCall name => "multiplex definition name <" ++ name ++ "> call"
  | .endlessRecursion => "never ending recursion"
  | .unknownProperty name => "invalid character property name \x7b" ++ name ++ "\x7d"
  | .tooFewDigits => "too short digits"
  | .endAtControl => "end pattern at control"
  | .endAtMeta => "end pattern at meta"
  | .controlForm => "invalid control-code syntax"
  | .metaForm => "invalid meta-code syntax"
  | .unclosedCallout => "invalid callout pattern"
  | .calloutName => "invalid callout name"
  | .unknownCallout => "undefined callout name"
  | .nestedTooDeep => "parse depth limit over"

end SyntaxHighlight.Regex
