/-! The global functions and the methods, by the names that expressions use. -/
namespace StoryMarkup.Script

inductive Builtin where
  | arrayFrom | arrayIsArray
  | toBool
  | jsonParse | jsonStringify
  | abs | cbrt | ceil | cos | exp | floor | log | max | min | pow | random | round | sign | sin | sqrt | tan | trunc
  | toNumber | isFinite | isInteger | numberIsNaN | numberParseFloat | numberParseInt
  | assign | entries | keys | values
  | toText
  | isNaN | parseFloat | parseInt
deriving DecidableEq, Repr

namespace Builtin

def table : List (String × Builtin) :=
  [("Array.from", .arrayFrom), ("Array.isArray", .arrayIsArray), ("Boolean", .toBool),
   ("JSON.parse", .jsonParse), ("JSON.stringify", .jsonStringify),
   ("Math.abs", .abs), ("Math.cbrt", .cbrt), ("Math.ceil", .ceil), ("Math.cos", .cos), ("Math.exp", .exp),
   ("Math.floor", .floor), ("Math.log", .log), ("Math.max", .max), ("Math.min", .min), ("Math.pow", .pow),
   ("Math.random", .random), ("Math.round", .round), ("Math.sign", .sign), ("Math.sin", .sin),
   ("Math.sqrt", .sqrt), ("Math.tan", .tan), ("Math.trunc", .trunc),
   ("Number", .toNumber), ("Number.isFinite", .isFinite), ("Number.isInteger", .isInteger),
   ("Number.isNaN", .numberIsNaN), ("Number.parseFloat", .numberParseFloat), ("Number.parseInt", .numberParseInt),
   ("Object.assign", .assign), ("Object.entries", .entries), ("Object.keys", .keys), ("Object.values", .values),
   ("String", .toText), ("isNaN", .isNaN), ("parseFloat", .parseFloat), ("parseInt", .parseInt)]

def ofName? (name : String) : Option Builtin := table.lookup name

def name (b : Builtin) : String := ((table.find? fun e => e.2 == b).map (·.1)).getD ""

def within (space : String) : List (String × Builtin) :=
  table.filterMap fun (name, b) =>
    let lead := space.toList ++ ['.']
    if lead.isPrefixOf name.toList then some (String.ofList (name.toList.drop lead.length), b) else none

end Builtin

inductive TextMethod where
  | at | charAt | charCodeAt | concat | endsWith | includes | indexOf | lastIndexOf | matchPattern | padEnd | padStart
  | repeated | replace | replaceAll | slice | split | startsWith | substring | toLowerCase | toString | toUpperCase
  | trim | trimEnd | trimStart
deriving DecidableEq, Repr

def TextMethod.ofName? : String → Option TextMethod
  | "at" => some .at
  | "charAt" => some .charAt
  | "charCodeAt" => some .charCodeAt
  | "concat" => some .concat
  | "endsWith" => some .endsWith
  | "includes" => some .includes
  | "indexOf" => some .indexOf
  | "lastIndexOf" => some .lastIndexOf
  | "match" => some .matchPattern
  | "padEnd" => some .padEnd
  | "padStart" => some .padStart
  | "repeat" => some .repeated
  | "replace" => some .replace
  | "replaceAll" => some .replaceAll
  | "slice" => some .slice
  | "split" => some .split
  | "startsWith" => some .startsWith
  | "substring" => some .substring
  | "toLowerCase" => some .toLowerCase
  | "toString" => some .toString
  | "toUpperCase" => some .toUpperCase
  | "trim" => some .trim
  | "trimEnd" => some .trimEnd
  | "trimStart" => some .trimStart
  | _ => none

inductive Walk where
  | every | filter | find | findIndex | forEach | map | some
deriving DecidableEq, Repr

def Walk.name : Walk → String
  | .every => "every"
  | .filter => "filter"
  | .find => "find"
  | .findIndex => "findIndex"
  | .forEach => "forEach"
  | .map => "map"
  | .some => "some"

inductive ListMethod where
  | at | concat | flat | includes | indexOf | join | lastIndexOf | pop | push | reduce | reverse | shift | slice | sort
  | splice | toString | unshift
  | walk (w : Walk)
deriving DecidableEq, Repr

def ListMethod.ofName? : String → Option ListMethod
  | "at" => some .at
  | "concat" => some .concat
  | "every" => some (.walk .every)
  | "filter" => some (.walk .filter)
  | "find" => some (.walk .find)
  | "findIndex" => some (.walk .findIndex)
  | "flat" => some .flat
  | "forEach" => some (.walk .forEach)
  | "includes" => some .includes
  | "indexOf" => some .indexOf
  | "join" => some .join
  | "lastIndexOf" => some .lastIndexOf
  | "map" => some (.walk .map)
  | "pop" => some .pop
  | "push" => some .push
  | "reduce" => some .reduce
  | "reverse" => some .reverse
  | "shift" => some .shift
  | "slice" => some .slice
  | "some" => some (.walk .some)
  | "sort" => some .sort
  | "splice" => some .splice
  | "toString" => some .toString
  | "unshift" => some .unshift
  | _ => none

inductive NumberMethod where
  | toFixed | toString
deriving DecidableEq, Repr

def NumberMethod.ofName? : String → Option NumberMethod
  | "toFixed" => some .toFixed
  | "toString" => some .toString
  | _ => none

inductive PatternMethod where
  | exec | test | toString
deriving DecidableEq, Repr

def PatternMethod.ofName? : String → Option PatternMethod
  | "exec" => some .exec
  | "test" => some .test
  | "toString" => some .toString
  | _ => none

inductive ObjectMethod where
  | hasOwnProperty | toString
deriving DecidableEq, Repr

def ObjectMethod.ofName? : String → Option ObjectMethod
  | "hasOwnProperty" => some .hasOwnProperty
  | "toString" => some .toString
  | _ => none

end StoryMarkup.Script
