import PackageCoupling.Json.Token
import PackageCoupling.Json.Value

namespace PackageCoupling.Json

-- An array or object that is still open, with what it holds so far, latest first. An object is kept
-- together with the key whose value comes next.
inductive Frame where
  | array (items : List Json)
  | object (members : List (Option String × Json)) (key : Option String)

-- Where the reader stands, within which open arrays and objects, innermost first.
inductive Reader where
  -- A value comes next.
  | value (frames : List Frame)
  -- An array has just been opened.
  | arrayStart (frames : List Frame)
  -- An object has just been opened.
  | objectStart (frames : List Frame)
  -- A key comes next, after the members read so far.
  | key (members : List (Option String × Json)) (frames : List Frame)
  -- A colon comes next, after a key.
  | colon (members : List (Option String × Json)) (key : Option String) (frames : List Frame)
  -- A value has just been read.
  | after (value : Json) (frames : List Frame)

namespace Reader

def start : Reader :=
  value []

def begin (frames : List Frame) : Token → Option Reader
  | .null       => some (after .null frames)
  | .bool b     => some (after (.bool b) frames)
  | .number n   => some (after (.number n) frames)
  | .string s   => some (after (.string s) frames)
  | .openArray  => some (arrayStart frames)
  | .openObject => some (objectStart frames)
  | _           => none

def step : Reader → Token → Option Reader
  | value fs, t                               => begin fs t
  | arrayStart fs, .closeArray                => some (after (.array []) fs)
  | arrayStart fs, t                          => begin (.array [] :: fs) t
  | objectStart fs, .closeObject              => some (after (.object []) fs)
  | objectStart fs, .string k                 => some (colon [] k fs)
  | key ms fs, .string k                      => some (colon ms k fs)
  | colon ms k fs, .colon                     => some (value (.object ms k :: fs))
  | after v (.array vs :: fs), .comma         => some (value (.array (v :: vs) :: fs))
  | after v (.array vs :: fs), .closeArray    => some (after (.array (v :: vs).reverse) fs)
  | after v (.object ms k :: fs), .comma      => some (key ((k, v) :: ms) fs)
  | after v (.object ms k :: fs), .closeObject => some (after (.object ((k, v) :: ms).reverse) fs)
  | _, _                                      => none

def finish : Reader → Option Json
  | after v [] => some v
  | _          => none

def run (reader : Reader) (cs : List Char) : Option Json :=
  match hs : cs.dropWhile isSpace with
  | [] => reader.finish
  | c :: cs' =>
    match hn : Token.next? (c :: cs') with
    | none => none
    | some (token, rest) =>
      match reader.step token with
      | none => none
      | some reader =>
        have : rest.length < cs.length :=
          Nat.lt_of_lt_of_le (hs ▸ Token.next?_length hn) (List.dropWhile_sublist _).length_le
        run reader rest
termination_by cs.length

end Reader

def parse? (text : String) : Option Json :=
  Reader.start.run text.toList

end PackageCoupling.Json
