import Parlance.Text
/-!
Languages: their codes, the symbols of numbers, and the patterns of dates and times.
-/

namespace Parlance.Sample

inductive Language where
  | english
  | german
  | french
  | chinese
  deriving DecidableEq

namespace Language

def all : List Language := [.english, .german, .french, .chinese]

def code : Language → String
  | .english => "en"
  | .german => "de"
  | .french => "fr"
  | .chinese => "zh"

/-- The script that it is mostly written in. -/
def script : Language → String
  | .chinese => "Hans"
  | _ => "Latn"

/-- The region that comes to mind first. -/
def region : Language → String
  | .english => "US"
  | .german => "DE"
  | .french => "FR"
  | .chinese => "CN"

/-- Whether scripts of it have to be told apart. -/
def hasScripts : Language → Bool
  | .chinese => true
  | _ => false

/-! ### Numbers -/

def decimalPoint : Language → Char
  | .german | .french => ','
  | _ => '.'

def groupSeparator : Language → Char
  | .german => '.'
  | .french => '\u202f'
  | _ => ','

def numberPattern : Text := "#,##0.###".toList

def percentPattern : Language → Text
  | .german | .french => "#,##0\u00a0%"
  | _ => "#,##0%"

/-! ### Dates and times -/

/-- The named lengths of dates and times. -/
inductive Width where
  | short
  | medium
  | long
  | full
  deriving DecidableEq

def Width.ofName? (name : Text) : Option Width :=
  if name = "short".toList then some .short
  else if name = "medium".toList then some .medium
  else if name = "long".toList then some .long
  else if name = "full".toList then some .full
  else none

def datePattern : Language → Width → Text
  | .english, .short => "M/d/yy"
  | .english, .medium => "MMM d, y"
  | .english, .long => "MMMM d, y"
  | .english, .full => "EEEE, MMMM d, y"
  | .german, .short => "dd.MM.yy"
  | .german, .medium => "dd.MM.y"
  | .german, .long => "d. MMMM y"
  | .german, .full => "EEEE, d. MMMM y"
  | .french, .short => "dd/MM/y"
  | .french, .medium => "d MMM y"
  | .french, .long => "d MMMM y"
  | .french, .full => "EEEE d MMMM y"
  | .chinese, .short => "y/M/d"
  | .chinese, .medium | .chinese, .long => "y年M月d日"
  | .chinese, .full => "y年M月d日EEEE"

def timePattern : Language → Width → Text
  | .english, .short => "h:mm\u202fa"
  | .english, .medium => "h:mm:ss\u202fa"
  | .english, .long => "h:mm:ss\u202fa z"
  | .english, .full => "h:mm:ss\u202fa zzzz"
  | .german, .short | .french, .short | .chinese, .short => "HH:mm"
  | .german, .medium | .french, .medium | .chinese, .medium => "HH:mm:ss"
  | .german, .long | .french, .long => "HH:mm:ss z"
  | .german, .full | .french, .full => "HH:mm:ss zzzz"
  | .chinese, .long => "z HH:mm:ss"
  | .chinese, .full => "zzzz HH:mm:ss"

end Language

end Parlance.Sample
