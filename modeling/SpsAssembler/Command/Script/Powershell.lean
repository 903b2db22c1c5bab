/-!
# The script of powershell

The shell calls the script when a word is to be completed. It asks the program for choices and hands
them on in the form of the mode that the shell is in.

* `Script.powershellLines`: the lines of the script.
-/

namespace SpsAssembler.Script

/-- The lines of the script of powershell, which asks for choices by the word `request`. -/
def powershellLines (request : String) : List String :=
  ["# powershell completion for sps1620                              -*- shell-script -*-",
   "",
   "function __sps1620_debug \x7b",
   "    if ($env:BASH_COMP_DEBUG_FILE) \x7b",
   "        \"$args\" | Out-File -Append -FilePath \"$env:BASH_COMP_DEBUG_FILE\"",
   "    \x7d",
   "\x7d",
   "",
   "filter __sps1620_escapeStringWithSpecialChars \x7b",
   "    $_ -replace '\\s|#|@|\\$|;|,|''|\\\x7b|\\\x7d|\\(|\\)|\"|`|\\||<|>|&','`$&'",
   "\x7d",
   "",
   "[scriptblock]$\x7b__sps1620CompleterBlock\x7d = \x7b",
   "    param(",
   "            $WordToComplete,",
   "            $CommandAst,",
   "            $CursorPosition",
   "        )",
   "",
   "    # Get the current command line and convert into a string",
   "    $Command = $CommandAst.CommandElements",
   "    $Command = \"$Command\"",
   "",
   "    __sps1620_debug \"\"",
   "    __sps1620_debug \"========= starting completion logic ==========\"",
   "    __sps1620_debug \"WordToComplete: $WordToComplete Command: $Command CursorPosition:" ++
     " $CursorPosition\"",
   "",
   "    # The user could have moved the cursor backwards on the command-line.",
   "    # We need to trigger completion from the $CursorPosition location, so we need",
   "    # to truncate the command-line ($Command) up to the $CursorPosition location.",
   "    # Make sure the $Command is longer then the $CursorPosition before we truncate.",
   "    # This happens because the $Command does not include the last space.",
   "    if ($Command.Length -gt $CursorPosition) \x7b",
   "        $Command=$Command.Substring(0,$CursorPosition)",
   "    \x7d",
   "    __sps1620_debug \"Truncated command: $Command\"",
   "",
   "    $ShellCompDirectiveError=1",
   "    $ShellCompDirectiveNoSpace=2",
   "    $ShellCompDirectiveNoFileComp=4",
   "    $ShellCompDirectiveFilterFileExt=8",
   "    $ShellCompDirectiveFilterDirs=16",
   "    $ShellCompDirectiveKeepOrder=32",
   "",
   "    # Prepare the command to request completions for the program.",
   "    # Split the command at the first space to separate the program and arguments.",
   "    $Program,$Arguments = $Command.Split(\" \",2)",
   "",
   "    $RequestComp=\"$Program " ++ request ++ " $Arguments\"",
   "    __sps1620_debug \"RequestComp: $RequestComp\"",
   "",
   "    # we cannot use $WordToComplete because it",
   "    # has the wrong values if the cursor was moved",
   "    # so use the last argument",
   "    if ($WordToComplete -ne \"\" ) \x7b",
   "        $WordToComplete = $Arguments.Split(\" \")[-1]",
   "    \x7d",
   "    __sps1620_debug \"New WordToComplete: $WordToComplete\"",
   "",
   "",
   "    # Check for flag with equal sign",
   "    $IsEqualFlag = ($WordToComplete -Like \"--*=*\" )",
   "    if ( $IsEqualFlag ) \x7b",
   "        __sps1620_debug \"Completing equal sign flag\"",
   "        # Remove the flag part",
   "        $Flag,$WordToComplete = $WordToComplete.Split(\"=\",2)",
   "    \x7d",
   "",
   "    if ( $WordToComplete -eq \"\" -And ( -Not $IsEqualFlag )) \x7b",
   "        # If the last parameter is complete (there is a space following it)",
   "        # We add an extra empty parameter so we can indicate this to the go method.",
   "        __sps1620_debug \"Adding extra empty parameter\"",
   "        # PowerShell 7.2+ changed the way how the arguments are passed to executables,",
   "        # so for pre-7.2 or when Legacy argument passing is enabled we need to use",
   "        # `\"`\" to pass an empty argument, a \"\" or '' does not work!!!",
   "        if ($PSVersionTable.PsVersion -lt [version]'7.2.0' -or",
   "            ($PSVersionTable.PsVersion -lt [version]'7.3.0' -and -not" ++
     " [ExperimentalFeature]::IsEnabled(\"PSNativeCommandArgumentPassing\")) -or",
   "            (($PSVersionTable.PsVersion -ge [version]'7.3.0' -or" ++
     " [ExperimentalFeature]::IsEnabled(\"PSNativeCommandArgumentPassing\")) -and",
   "              $PSNativeCommandArgumentPassing -eq 'Legacy')) \x7b",
   "             $RequestComp=\"$RequestComp\" + ' `\"`\"'",
   "        \x7d else \x7b",
   "             $RequestComp=\"$RequestComp\" + ' \"\"'",
   "        \x7d",
   "    \x7d",
   "",
   "    __sps1620_debug \"Calling $RequestComp\"",
   "    # First disable ActiveHelp which is not supported for Powershell",
   "    $\x7benv:SPS1620_ACTIVE_HELP\x7d=0",
   "",
   "    #call the command store the output in $out and redirect stderr and stdout to null",
   "    # $Out is an array contains each line per element",
   "    Invoke-Expression -OutVariable out \"$RequestComp\" 2>&1 | Out-Null",
   "",
   "    # get directive from last line",
   "    [int]$Directive = $Out[-1].TrimStart(':')",
   "    if ($Directive -eq \"\") \x7b",
   "        # There is no directive specified",
   "        $Directive = 0",
   "    \x7d",
   "    __sps1620_debug \"The completion directive is: $Directive\"",
   "",
   "    # remove directive (last element) from out",
   "    $Out = $Out | Where-Object \x7b $_ -ne $Out[-1] \x7d",
   "    __sps1620_debug \"The completions are: $Out\"",
   "",
   "    if (($Directive -band $ShellCompDirectiveError) -ne 0 ) \x7b",
   "        # Error code.  No completion.",
   "        __sps1620_debug \"Received error from custom completion go code\"",
   "        return",
   "    \x7d",
   "",
   "    $Longest = 0",
   "    [Array]$Values = $Out | ForEach-Object \x7b",
   "        #Split the output in name and description",
   "        $Name, $Description = $_.Split(\"`t\",2)",
   "        __sps1620_debug \"Name: $Name Description: $Description\"",
   "",
   "        # Look for the longest completion so that we can format things nicely",
   "        if ($Longest -lt $Name.Length) \x7b",
   "            $Longest = $Name.Length",
   "        \x7d",
   "",
   "        # Set the description to a one space string if there is none set.",
   "        # This is needed because the CompletionResult does not accept an empty string as" ++
     " argument",
   "        if (-Not $Description) \x7b",
   "            $Description = \" \"",
   "        \x7d",
   "        New-Object -TypeName PSCustomObject -Property @\x7b",
   "            Name = \"$Name\"",
   "            Description = \"$Description\"",
   "        \x7d",
   "    \x7d",
   "",
   "",
   "    $Space = \" \"",
   "    if (($Directive -band $ShellCompDirectiveNoSpace) -ne 0 ) \x7b",
   "        # remove the space here",
   "        __sps1620_debug \"ShellCompDirectiveNoSpace is called\"",
   "        $Space = \"\"",
   "    \x7d",
   "",
   "    if ((($Directive -band $ShellCompDirectiveFilterFileExt) -ne 0 ) -or",
   "       (($Directive -band $ShellCompDirectiveFilterDirs) -ne 0 ))  \x7b",
   "        __sps1620_debug \"ShellCompDirectiveFilterFileExt ShellCompDirectiveFilterDirs" ++
     " are not supported\"",
   "",
   "        # return here to prevent the completion of the extensions",
   "        return",
   "    \x7d",
   "",
   "    $Values = $Values | Where-Object \x7b",
   "        # filter the result",
   "        $_.Name -like \"$WordToComplete*\"",
   "",
   "        # Join the flag back if we have an equal sign flag",
   "        if ( $IsEqualFlag ) \x7b",
   "            __sps1620_debug \"Join the equal sign flag back to the completion value\"",
   "            $_.Name = $Flag + \"=\" + $_.Name",
   "        \x7d",
   "    \x7d",
   "",
   "    # we sort the values in ascending order by name if keep order isn't passed",
   "    if (($Directive -band $ShellCompDirectiveKeepOrder) -eq 0 ) \x7b",
   "        $Values = $Values | Sort-Object -Property Name",
   "    \x7d",
   "",
   "    if (($Directive -band $ShellCompDirectiveNoFileComp) -ne 0 ) \x7b",
   "        __sps1620_debug \"ShellCompDirectiveNoFileComp is called\"",
   "",
   "        if ($Values.Length -eq 0) \x7b",
   "            # Just print an empty string here so the",
   "            # shell does not start to complete paths.",
   "            # We cannot use CompletionResult here because",
   "            # it does not accept an empty string as argument.",
   "            \"\"",
   "            return",
   "        \x7d",
   "    \x7d",
   "",
   "    # Get the current mode",
   "    $Mode = (Get-PSReadLineKeyHandler | Where-Object \x7b$_.Key -eq \"Tab\" \x7d).Function",
   "    __sps1620_debug \"Mode: $Mode\"",
   "",
   "    $Values | ForEach-Object \x7b",
   "",
   "        # store temporary because switch will overwrite $_",
   "        $comp = $_",
   "",
   "        # PowerShell supports three different completion modes",
   "        # - TabCompleteNext (default windows style - on each key press the next option" ++
     " is displayed)",
   "        # - Complete (works like bash)",
   "        # - MenuComplete (works like zsh)",
   "        # You set the mode with Set-PSReadLineKeyHandler -Key Tab -Function <mode>",
   "",
   "        # CompletionResult Arguments:",
   "        # 1) CompletionText text to be used as the auto completion result",
   "        # 2) ListItemText   text to be displayed in the suggestion list",
   "        # 3) ResultType     type of completion result",
   "        # 4) ToolTip        text for the tooltip with details about the object",
   "",
   "        switch ($Mode) \x7b",
   "",
   "            # bash like",
   "            \"Complete\" \x7b",
   "",
   "                if ($Values.Length -eq 1) \x7b",
   "                    __sps1620_debug \"Only one completion left\"",
   "",
   "                    # insert space after value",
   "                    $CompletionText = $($comp.Name |" ++
     " __sps1620_escapeStringWithSpecialChars) + $Space",
   "                    if ($ExecutionContext.SessionState.LanguageMode -eq \"FullLanguage\")\x7b",
   "                        [System.Management.Automation.CompletionResult]::new(" ++
     "$CompletionText," ++
     " \"$($comp.Name)\", 'ParameterValue', \"$($comp.Description)\")",
   "                    \x7d else \x7b",
   "                        $CompletionText",
   "                    \x7d",
   "",
   "                \x7d else \x7b",
   "                    # Add the proper number of spaces to align the descriptions",
   "                    while($comp.Name.Length -lt $Longest) \x7b",
   "                        $comp.Name = $comp.Name + \" \"",
   "                    \x7d",
   "",
   "                    # Check for empty description and only add parentheses if needed",
   "                    if ($($comp.Description) -eq \" \" ) \x7b",
   "                        $Description = \"\"",
   "                    \x7d else \x7b",
   "                        $Description = \"  ($($comp.Description))\"",
   "                    \x7d",
   "",
   "                    $CompletionText = \"$($comp.Name)$Description\"",
   "                    if ($ExecutionContext.SessionState.LanguageMode -eq \"FullLanguage\")\x7b",
   "                        [System.Management.Automation.CompletionResult]::new(" ++
     "$CompletionText," ++
     " \"$($comp.Name)$Description\", 'ParameterValue', \"$($comp.Description)\")",
   "                    \x7d else \x7b",
   "                        $CompletionText",
   "                    \x7d",
   "                \x7d",
   "             \x7d",
   "",
   "            # zsh like",
   "            \"MenuComplete\" \x7b",
   "                # insert space after value",
   "                # MenuComplete will automatically show the ToolTip of",
   "                # the highlighted value at the bottom of the suggestions.",
   "",
   "                $CompletionText = $($comp.Name | __sps1620_escapeStringWithSpecialChars)" ++
     " + $Space",
   "                if ($ExecutionContext.SessionState.LanguageMode -eq \"FullLanguage\")\x7b",
   "                    [System.Management.Automation.CompletionResult]::new(" ++
     "$CompletionText," ++
     " \"$($comp.Name)\", 'ParameterValue', \"$($comp.Description)\")",
   "                \x7d else \x7b",
   "                    $CompletionText",
   "                \x7d",
   "            \x7d",
   "",
   "            # TabCompleteNext and in case we get something unknown",
   "            Default \x7b",
   "                # Like MenuComplete but we don't want to add a space here because",
   "                # the user need to press space anyway to get the completion.",
   "                # Description will not be shown because that's not possible with" ++
     " TabCompleteNext",
   "",
   "                $CompletionText = $($comp.Name | __sps1620_escapeStringWithSpecialChars)",
   "                if ($ExecutionContext.SessionState.LanguageMode -eq \"FullLanguage\")\x7b",
   "                    [System.Management.Automation.CompletionResult]::new(" ++
     "$CompletionText," ++
     " \"$($comp.Name)\", 'ParameterValue', \"$($comp.Description)\")",
   "                \x7d else \x7b",
   "                    $CompletionText",
   "                \x7d",
   "            \x7d",
   "        \x7d",
   "",
   "    \x7d",
   "\x7d",
   "",
   "Register-ArgumentCompleter -CommandName 'sps1620' -ScriptBlock" ++
     " $\x7b__sps1620CompleterBlock\x7d"]

end SpsAssembler.Script
