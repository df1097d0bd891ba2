import StableSupply.Token

/-! # Banner and chain summary

What a node shows of itself when it starts, line by line for a log and in colour for a terminal. -/

namespace StableSupply.Banner

/-! ## Terminal styles -/

/-- Ends all styles before it. -/
def reset : String := "\x1b[0m"

def bold : String := "\x1b[1m"

def dim : String := "\x1b[2m"

def green : String := "\x1b[32m"

def yellow : String := "\x1b[33m"

def cyan : String := "\x1b[36m"

/-! ## Banner -/

def logo : List String :=
  ["╔═════════════════════════════════════════════════════╗",
   "║                                                     ║",
   "║          █████╗  ██████╗  ██╗   ██╗██╗              ║",
   "║         ██╔═══██╗╚════██╗ ██║   ██║██║              ║",
   "║         ██║   ██║ █████╔╝ ██║   ██║██║              ║",
   "║         ██║   ██║██╔═══╝  ██║   ██║██║              ║",
   "║         ╚██████╔╝███████╗ ╚██████╔╝███████╗         ║",
   "║          ╚═════╝ ╚══════╝  ╚═════╝ ╚══════╝         ║",
   "║                                                     ║",
   "╚═════════════════════════════════════════════════════╝"]

/-- The logo, the currency and its motto. -/
def lines : List String :=
  logo.map (" " ++ ·) ++
    ["", "               ORBIS OMNIRA UNITAS LEX", "               THE UNIVERSAL CURRENCY"]

/-! ## Chain summary -/

/-- The network that a well-known chain belongs to. -/
def networkName (chainId : UInt64) : String :=
  match chainId with
  | 20213 => "mainnet"
  | 20214 => "testnet"
  | 20215 => "devnet"
  | 20216 => "stagenet"
  | _ => "unknown"

/-- A line that sets the summary apart. -/
def rule : String := .ofList (List.replicate 73 '─')

/-- The number of whole tokens in an amount. -/
def wholeTokens (amount : Word) : String := toString (amount.toNat / 10 ^ 18)

/-- One line for each entry, a label and a colon before it. -/
def summary (chainId : UInt64) (version : String) (value : ValueToken) (stable : StableToken) :
    List String :=
  ["Chain ID:     " ++ toString chainId.toNat,
   "Network:      " ++ networkName chainId,
   "Version:      " ++ version,
   "Value token:  " ++ value.name ++ " (" ++ value.symbol ++ "), max supply " ++
     wholeTokens value.maxSupply,
   "Stable token: " ++ stable.name ++ " (" ++ stable.symbol ++ "), initial supply " ++
     wholeTokens stable.initialSupply ++ ", minimum " ++ wholeTokens stable.minimumSupply,
   "Stability:    " ++ toString (stable.updateFrequencySecs.toNat / 3600) ++
     "-hour oracle updates over " ++ toString stable.continentalWeights.size ++ " regions and " ++
     toString stable.timeframeWeights.size ++ " timeframes"]

/-- The summary between two rules, as it is logged. -/
def summaryLog (chainId : UInt64) (version : String) (value : ValueToken) (stable : StableToken) :
    List String :=
  rule :: (summary chainId version value stable).map (" " ++ ·) ++ [rule]

/-- A line of the summary with its label, up to the first colon, in bold. -/
def styled (line : String) : String :=
  let label := line.toList.takeWhile (· ≠ ':')
  match line.toList.dropWhile (· ≠ ':') with
  | _ :: rest => "  " ++ bold ++ .ofList label ++ ":" ++ reset ++ .ofList rest ++ "\n"
  | [] => "  " ++ line ++ "\n"

/-- The summary in colour. -/
def summaryText (chainId : UInt64) (version : String) (value : ValueToken) (stable : StableToken) :
    String :=
  dim ++ rule ++ reset ++ "\n" ++ bold ++ cyan ++ "Blockchain Information" ++ reset ++ "\n" ++
    String.join ((summary chainId version value stable).map styled) ++ dim ++ rule ++ reset

end StableSupply.Banner
