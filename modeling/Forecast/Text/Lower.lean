namespace Forecast.Text

/-- The letters outside ASCII whose lower case takes another number of bytes, with that lower case.
The dotted capital I comes apart into an i and its dot, and the Kelvin sign is a k. -/
def resizedByLower : List (Char × List Char) :=
  [('\u0130', ['i', '\u0307']), ('\u023A', ['\u2C65']), ('\u023E', ['\u2C66']),
    ('\u1E9E', ['\u00DF']), ('\u2126', ['\u03C9']), ('\u212A', ['k']), ('\u212B', ['\u00E5']),
    ('\u2C62', ['\u026B']), ('\u2C64', ['\u027D']), ('\u2C6D', ['\u0251']), ('\u2C6E', ['\u0271']),
    ('\u2C6F', ['\u0250']), ('\u2C70', ['\u0252']), ('\u2C7E', ['\u023F']), ('\u2C7F', ['\u0240']),
    ('\uA78D', ['\u0265']), ('\uA7AA', ['\u0266']), ('\uA7AB', ['\u025C']), ('\uA7AC', ['\u0261']),
    ('\uA7AD', ['\u026C']), ('\uA7AE', ['\u026A']), ('\uA7B0', ['\u029E']), ('\uA7B1', ['\u0287']),
    ('\uA7B2', ['\u029D']), ('\uA7C5', ['\u0282'])]

def lowerLetter (c : Char) : List Char := (resizedByLower.lookup c).getD [c.toLower]

def lower (letters : List Char) : List Char := letters.flatMap lowerLetter

end Forecast.Text
