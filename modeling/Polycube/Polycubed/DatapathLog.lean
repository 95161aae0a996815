import Polycube.Lib.Regex

/-!
# Rewriting of log calls

Before a data path program is compiled, the daemon takes the comments out of its source and puts
blocks that fill a perf buffer in the place of the calls of `pcn_log`.  All of this is done with
regular expressions on the text; the argument list of a call is put on one line, since the block
has it in a directive.
-/

namespace Polycube.Polycubed.DatapathLog

open Lib Lib.Regex

abbrev Text := List Char

/-- White space, as `\s` has it. -/
def isspace (c : Char) : Bool :=
  c = ' ' || c = '\t' || c = '\n' || c = Char.ofNat 11 || c = Char.ofNat 12 || c = '\r'

/-! ### The regular expressions -/

def splice : Text := ['\\', '\n']

def escapes (q : Char) : Regex Char :=
  alt (lit ['\\', '\\']) (alt (lit ['\\', q]) (alt (lit splice) (one (· ≠ q))))

def lineComment : Regex Char :=
  seq (lit ['/', '/']) (star true (alt (lit splice) (one (· ≠ '\n'))))

def blockComment : Regex Char :=
  seq (lit ['/', '*']) (seq (star false (one fun _ => true)) (lit ['*', '/']))

def rawString : Regex Char :=
  seq (lit ['R', '"']) (seq (group 2 (upTo (one fun c => c ≠ '(' && c ≠ '\\' && !isspace c) 16))
    (seq (one (· = '(')) (seq (star true (one (· ≠ ')'))) (seq (one (· = ')'))
      (seq (back 2) (one (· = '"')))))))

def atString : Regex Char :=
  seq (lit ['@', '"']) (seq (star false (one (· ≠ '"'))) (one (· = '"')))

def string : Regex Char :=
  seq (one (· = '"')) (seq (star false (alt (lit ['?', '?', '\'']) (escapes '"'))) (one (· = '"')))

def character : Regex Char :=
  seq (one (· = '\'')) (seq (star false (escapes '\'')) (one (· = '\'')))

def regComments : Regex Char :=
  alt lineComment (alt blockComment (group 1 (alt rawString (alt atString (alt string character)))))

def name : Text := ['p', 'c', 'n', '_', 'l', 'o', 'g']

def regN : Regex Char :=
  seq (lit name) (seq (star true (one isspace)) (seq (one (· = '('))
    (seq (group 1 (plus false (one fun _ => true)))
      (seq (one (· = ')')) (seq (star true (one isspace)) (one (· = ';')))))))

def regNewLine : Regex Char :=
  alt (seq (one (· = '/')) (plus true (group 1 (lit ['\r', '\n']))))
    (alt (plus true (one (· = '\r'))) (alt (plus true (one (· = '\n')))
      (seq (plus true (one (· = '\t'))) (lit ['/', 'i']))))

def regAddSpaces : Regex Char := plus true (one (· = ' '))

/-- `fuel` is the number of characters that may still come. -/
def replaceStringFrom (search replacement : Text) : ℕ → Text → Text
  | fuel + 1, c :: t =>
    if search <+: c :: t then
      replacement ++ replaceStringFrom search replacement fuel (t.drop (search.length - 1))
    else c :: replaceStringFrom search replacement fuel t
  | _, _ => []

/-- `std::string::find` and `replace`, from left to right; what is put in is not searched. -/
def replaceString (subject search replacement : Text) : Text :=
  replaceStringFrom search replacement subject.length subject

def REPLACE_BASE : Text := "
do \x7b
#if GET_LEVEL($1) >= LOG_LEVEL
  LOG_STRUCT($1);
  log_buffer.perf_submit(GET_CTX($1), &msg_struct, sizeof(msg_struct));
#endif
\x7d while(0);
".toList

def dpCallback (groups : ℕ → Text) : Text :=
  let args := replace regNewLine (fun _ => []) (groups 1)
  let args := replace regAddSpaces (fun _ => [' ']) args
  replaceString REPLACE_BASE ['$', '1'] args

def parseLog (BASE_CODE code : Text) : Text :=
  let code1 := replace regComments (fun groups => groups 1) code
  let code2 := replace regN dpCallback code1
  BASE_CODE ++ code2

end Polycube.Polycubed.DatapathLog
